import ProxyFleet.Proofs.Json.Reading
import ProxyFleet.Proofs.Json.Record
import ProxyFleet.Proofs.Store.Table
import ProxyFleet.Proofs.Time.Day
import ProxyFleet.Traffic.Ledger

/-!
# Staged traffic is read as it was staged

Staged traffic is kept as text. What is read of it is what was staged, but for the rate: a double that is
read need not be the one that was written.

* `Traffic.atRate`, `Traffic.decoder_reread` : if the text of traffic can be read, it is read as that traffic at
  some rate;
* `Traffic.Fits`, `Traffic.exists_decoder_reread` : counters of 64 bits at a finite rate can be read;
* `StagedRow.Keeps`, `StagedRow.batch_yields` : a row keeps a batch, and is read as that batch;
* `StagedRow.Legible`, `Ledger.exists_staged` : rows that can be read, and that all of a node's are.
-/

namespace ProxyFleet

set_option autoImplicit false

open Fields

/-! ## What is read of traffic -/

theorem UserTraffic.decoder_reread {u : UserTraffic} {w : Json} (h : u.toJson.reread? = some w) :
    Yields (UserTraffic.decoder w) (· = u) := by
  obtain ⟨ws, hws, rfl⟩ := Option.map_eq_some_iff.1 h
  exact Gives.record _ <| (((Gives.reread hws rfl fun _ => Decoder.text_reread).map UserTraffic.mk).seq
    (.reread hws rfl fun _ => Decoder.i64_reread)).seq (.reread hws rfl fun _ => Decoder.i64_reread)

/-- The same traffic at another rate. -/
def Traffic.atRate (t : Traffic) (rate : Binary64) : Traffic := { t with rate }

theorem Traffic.decoder_reread {t : Traffic} {w : Json} (h : t.toJson.reread? = some w) :
    Yields (Traffic.decoder w) fun t' => ∃ rate, t' = t.atRate rate := by
  obtain ⟨ws, hws, rfl⟩ := Option.map_eq_some_iff.1 h
  obtain ⟨rate, hrate⟩ := Decoder.exists_reread Decoder.f64 (.float t.rate)
  have hread : Yields (Traffic.decoder (.obj ws)) (· = t.atRate rate) :=
    Gives.record _ <| (((((Gives.reread hws rfl fun _ => Decoder.text_reread).map Traffic.mk).seq
      (.reread hws rfl hrate)).seq
      (.reread hws rfl fun _ => Decoder.i64_reread)).seq
      (.reread hws rfl fun _ => Decoder.i64_reread)).seq
      (.reread hws rfl fun _ => Decoder.list_reread fun _ _ => UserTraffic.decoder_reread)
  exact fun t' ht' => ⟨rate, hread t' ht'⟩

theorem UserTraffic.definite_toJson (u : UserTraffic) (depth : Nat) : u.toJson.Definite (depth + 1) := by
  simp [toJson, Json.Definite, Json.definite_int]

/-- A document of traffic is not deep, and the same is read of its numbers, whatever follows them. -/
theorem Traffic.definite_toJson (t : Traffic) : t.toJson.Definite Json.maxDepth := by
  have husers : ∀ u ∈ t.users, u.toJson.Definite 125 := fun u _ => u.definite_toJson 124
  simpa [toJson, Json.maxDepth, Json.Definite, Json.definite_int, Json.definite_float] using husers

/-- The counters have 64 bits. -/
structure UserTraffic.Fits (u : UserTraffic) : Prop where
  upload : SixtyFourBits u.upload
  download : SixtyFourBits u.download

/-- The counters have 64 bits, and the rate is finite. -/
structure Traffic.Fits (t : Traffic) : Prop where
  rate : t.rate.isFinite = true
  upload : SixtyFourBits t.upload
  download : SixtyFourBits t.download
  users : ∀ u ∈ t.users, u.Fits

theorem UserTraffic.decoder_toJson {u : UserTraffic} (h : u.Fits) : UserTraffic.decoder u.toJson = .ok u :=
  Decoder.record_eq_ok _ (by simp) <| (((Reads.present rfl (Decoder.text_eq_ok u.uuid)).map UserTraffic.mk).seq
    (.present rfl (Decoder.i64_eq_ok h.upload))).seq (.present rfl (Decoder.i64_eq_ok h.download))

/-- Traffic that fits is read. -/
theorem Traffic.exists_decoder_reread {t : Traffic} (h : t.Fits) :
    ∃ w t', t.toJson.reread? = some w ∧ Traffic.decoder w = .ok t' := by
  obtain ⟨y, hy⟩ := (JsonNumber.definite_float h.rate).2
  have hrate : (Json.float t.rate).reread? = some (.num (.float y)) := by
    rw [Json.float, if_pos h.rate, Json.reread?, hy, Option.map_some]
  have hcounter {i : Int} (hi : SixtyFourBits i) : (Json.int i).reread? = some (.int i) := by
    have hlegible : Json.Legible 0 (.int i) := hi.legible
    exact hlegible.definite.2
  have husers : Json.rereadItems? (t.users.map UserTraffic.toJson) = some (t.users.map UserTraffic.toJson) := by
    refine Json.rereadItems?_eq_some fun v hv => ?_
    obtain ⟨u, hu, rfl⟩ := List.mem_map.1 hv
    simp [UserTraffic.toJson, Json.reread?, Json.rereadFields?, hcounter (h.users u hu).upload,
      hcounter (h.users u hu).download]
  refine ⟨.obj [("protocol", .str t.protocol), ("rate", .num (.float y)), ("upload", .int t.upload),
    ("download", .int t.download), ("users", .arr (t.users.map UserTraffic.toJson))], t.atRate y, ?_, ?_⟩
  · simp [Traffic.toJson, Json.reread?, Json.rereadFields?, hrate, hcounter h.upload, hcounter h.download, husers]
  · exact Decoder.record_eq_ok _ (by simp) <| (((((Reads.present rfl (Decoder.text_eq_ok t.protocol)).map
      Traffic.mk).seq
      (.present rfl rfl)).seq
      (.present rfl (Decoder.i64_eq_ok h.upload))).seq
      (.present rfl (Decoder.i64_eq_ok h.download))).seq
      (.present rfl (Decoder.list_written fun u hu => UserTraffic.decoder_toJson (h.users u hu)))

/-! ## Rows -/

/-- The same batch at another rate. -/
def TrafficBatch.atRate (b : TrafficBatch) (rate : Binary64) : TrafficBatch :=
  { b with traffic := b.traffic.atRate rate }

/-- The row keeps the batch, but for its id. -/
structure StagedRow.Keeps (r : StagedRow) (b : TrafficBatch) : Prop where
  node : r.node = b.node
  day : r.day = b.day.text
  traffic : r.traffic = .ofText b.traffic.toJson.compact

theorem StagedRow.Keeps.staged (id node : Int) (day : Day) (t : Traffic) (createdAt : String) :
    StagedRow.Keeps ⟨node, day.text, .ofText t.toJson.compact, createdAt⟩ ⟨id, node, day, t⟩ where
  node := rfl
  day := rfl
  traffic := by
    -- not by computation, which would read the text
    dsimp only

/-- The column of traffic holds what is read of its document. -/
theorem Traffic.column_eq (t : Traffic) : JsonColumn.ofText t.toJson.compact = t.toJson.reread? :=
  Json.parseRaw?_compact_eq_reread? t.definite_toJson

/-- The column of traffic is read as that traffic at some rate, if it can be read. -/
theorem Traffic.column_yields (t : Traffic) :
    Yields ((JsonColumn.ofText t.toJson.compact).read Traffic.decoder) fun t' => ∃ rate, t' = t.atRate rate := by
  rw [t.column_eq]
  cases hw : t.toJson.reread? with
  | none => exact .error _
  | some w => exact (Traffic.decoder_reread hw).mapError

/-- A row that keeps a batch is read as that batch at some rate, if it can be read. -/
theorem StagedRow.batch_yields {r : StagedRow} {b : TrafficBatch} (h : r.Keeps b) (hday : b.day.Valid) :
    Yields (r.batch b.id) fun b' => ∃ rate, b' = b.atRate rate := by
  have hread : Yields (Day.read r.day) (· = b.day) := by
    rw [h.day, Day.read_text hday]
    exact .ok rfl
  have htraffic := b.traffic.column_yields
  rw [← h.traffic] at htraffic
  refine hread.mapError.bind fun day hd => htraffic.bind fun traffic ht => .ok ?_
  obtain ⟨rate, rfl⟩ := ht
  exact ⟨rate, by rw [hd, h.node]; rfl⟩

/-- The row keeps a batch of a day that the calendar has, which can be read. -/
def StagedRow.Legible (r : StagedRow) : Prop := ∃ b : TrafficBatch, r.Keeps b ∧ b.day.Valid ∧ b.traffic.Fits

theorem StagedRow.Legible.exists_batch {r : StagedRow} (h : r.Legible) (id : Int) :
    ∃ b, r.batch id = .ok b ∧ id = b.id := by
  obtain ⟨b, hkeeps, hday, hfits⟩ := h
  have hread : Day.read r.day = .ok b.day := by rw [hkeeps.day, Day.read_text hday]
  obtain ⟨w, t, hw, ht⟩ := Traffic.exists_decoder_reread hfits
  have htraffic : r.traffic.read Traffic.decoder = .ok t := by
    rw [hkeeps.traffic, b.traffic.column_eq, hw, JsonColumn.read, ht]
    rfl
  refine ⟨⟨id, r.node, b.day, t⟩, ?_, rfl⟩
  rw [StagedRow.batch, hread, htraffic]
  rfl

/-- Where rows can be read, so can what is staged for a node. -/
theorem Ledger.exists_staged {l : Ledger} (h : ∀ e ∈ l.stagedRows.rows, e.2.Legible) (node : Int) :
    ∃ bs, l.staged node = .ok bs := by
  have hread : ∀ e ∈ l.stagedRows.select (·.node == node), ∃ b, e.2.batch e.1 = .ok b ∧ e.1 = b.id :=
    fun e he => (h e (List.mem_filter.1 he).1).exists_batch e.1
  obtain ⟨bs, hbs, -⟩ := exists_mapM_eq_ok hread
  exact ⟨bs, hbs⟩

end ProxyFleet
