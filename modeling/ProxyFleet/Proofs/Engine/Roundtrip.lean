import ProxyFleet.Proofs.Engine.Written
import ProxyFleet.Proofs.Json.Sorted

/-!
# Documents that are read can be written and read again

A document may come with explicit nulls, with sections left out, with arrays in place of objects, and with
fields that it has no place for. What is read of it is orderly all the same, so that what is written of that
is read as the same document again.

* `Document.decoder_ensures` : whatever is read is orderly;
* `Document.roundtrip` : a document that was read, or one that offers nodes, is written and read again.
-/

namespace ProxyFleet

set_option autoImplicit false

namespace Engine

open Decoder

/-! ## What is read -/

theorem Inbound.decoder_ensures : Inbound.decoder.Ensures Inbound.Orderly := by
  have hfields : Inbound.ownFields.Ensures fun inbound =>
      ∀ extra, (∀ port ∈ (inbound extra).listenPort, SixtyFourBits port) ∧ (inbound extra).extra = extra :=
    .seq (.seq (.seq (.map (.any _) fun _ _ _ _ _ _ _ hport _ => ⟨hport, rfl⟩) (.any _)) (.any _))
      (.optional i64_ensures)
  intro v hv
  rw [Inbound.decoder_eq]
  refine (Ensures.extended "Inbound" hfields v hv).bind fun (inbound, extra) ⟨hinbound, hextra⟩ => .ok ?_
  obtain ⟨hport, hsame⟩ := hinbound extra
  exact ⟨hport, hsame.symm ▸ hextra⟩

theorem OutboundTransport.decoder_ensures : OutboundTransport.decoder.Ensures OutboundTransport.Settled := by
  have hheaders : (Fields.default "headers" (map text) []).Ensures Keyed.Ordered :=
    .default (map_ensures text) .nil
  refine .record _ (.seq (.seq (.seq (.seq (.seq (.seq (.map (.any _) ?_) (.any _)) (.any _)) hheaders) (.any _))
    (.any _)) (.any _))
  exact fun _ _ _ _ _ _ _ hordered _ _ _ _ _ _ => hordered

theorem Outbound.decoder_ensures : Outbound.decoder.Ensures Outbound.Orderly := by
  have hfields : Outbound.ownFields.Ensures fun outbound =>
      ∀ extra, (∀ port ∈ (outbound extra).serverPort, SixtyFourBits port) ∧
        (∀ t ∈ (outbound extra).transport, t.Settled) ∧ (outbound extra).extra = extra := by
    -- field by field; of what is read, only the port and the transport can be out of order
    refine .seq (.seq (.seq (.seq (.seq (.seq (.seq (.seq (.seq (.seq (.seq (.seq (.seq (.map (.any _) ?_)
      (.any _)) (.any _)) (.optional i64_ensures)) (.any _)) (.any _)) (.any _)) (.any _)) (.any _)) (.any _))
      (.any _)) (.any _)) (.optional OutboundTransport.decoder_ensures)) (.any _)
    intro _ _ _ _ _ _ _ hport _ _ _ _ _ _ _ _ _ _ _ _ _ _ _ _ _ htransport _ _ extra
    exact ⟨hport, htransport, rfl⟩
  intro v hv
  rw [Outbound.decoder_eq]
  refine (Ensures.extended "Outbound" hfields v hv).bind fun (outbound, extra) ⟨houtbound, hextra⟩ => .ok ?_
  obtain ⟨hport, htransport, hsame⟩ := houtbound extra
  exact ⟨hport, htransport, hsame.symm ▸ hextra⟩

/-- Whatever is read as a document is orderly. -/
theorem Document.decoder_ensures : Document.decoder.Ensures Document.Orderly := by
  have hinbounds : (Fields.default "inbounds" (list Inbound.decoder) []).Ensures fun inbounds =>
      ∀ i ∈ inbounds, i.Orderly := .default (.list Inbound.decoder_ensures) (by simp)
  have houtbounds : (Fields.default "outbounds" (list Outbound.decoder) []).Ensures fun outbounds =>
      ∀ o ∈ outbounds, o.Orderly := .default (.list Outbound.decoder_ensures) (by simp)
  refine .record _ (.seq (.seq (.seq (.seq (.map (.any _) ?_) (.any _)) hinbounds) houtbounds) (.any _))
  exact fun _ _ _ _ _ hi _ ho _ _ => ⟨hi, ho⟩

/-! ## What is written -/

theorem Document.validateJson_eq {v : Json} {d : Document} (h : Document.decoder v = .ok d) :
    validateJson v = d.validate := by
  rw [validateJson, h]

/-- The text of an orderly document is read as the document, as far as JSON is faithful to it. -/
theorem Document.read_of_faithful {d : Document} (hd : d.Orderly) (hfaithful : d.toJson.Faithful) :
    ∃ w, Json.parse? d.toJson.pretty = some w ∧ Json.parse? d.toJson.compact = some w ∧
      Document.decoder w = .ok d ∧ validateJson w = d.validate := by
  have hread : Document.decoder d.toJson.sorted = .ok d := decoder_sorted hd
  exact ⟨_, hfaithful.1, hfaithful.2, hread, validateJson_eq hread⟩

/-- **Documents are written and read again.** Let JSON be faithful to what is written of a document that was
read from a value. Then both texts of the document are read as one value, which is read as the document and
is judged as the document is. The same holds of every document that offers nodes, whatever JSON is faithful
to. -/
theorem Document.roundtrip :
    (∀ (v : Json) (d : Document), Document.decoder v.sorted = .ok d → d.toJson.Faithful →
      ∃ w, Json.parse? d.toJson.pretty = some w ∧ Json.parse? d.toJson.compact = some w ∧
        Document.decoder w = .ok d ∧ validateJson w = d.validate) ∧
    ∀ (nodes : List NodeEntry) (settings : EngineSettings),
      ∃ w, Json.parse? (ofNodes nodes settings).toJson.pretty = some w ∧
        Json.parse? (ofNodes nodes settings).toJson.compact = some w ∧
        Document.decoder w = .ok (ofNodes nodes settings) ∧ validateJson w = (ofNodes nodes settings).validate := by
  constructor
  · intro v d hread hfaithful
    exact read_of_faithful (decoder_ensures v.sorted (Json.isSorted_sorted v) d hread) hfaithful
  · intro nodes settings
    have hsettled := settled_ofNodes nodes settings
    exact read_of_faithful hsettled.orderly hsettled.faithful

/-- A document with an explicit null, a partial section, and fields that no outbound has. -/
def sampleValue : Json :=
  .obj [("route", .obj [("final", .str "a")]), ("dns", .null),
    ("outbounds", .arr [.obj [("type", .str "direct"), ("zone", .null), ("tag", .str "a"),
      ("mark", .obj [("b", .nat 1), ("a", .bool true)])]])]

/-- What is read of it. -/
def sampleDocument : Document where
  outbounds := [{ kind := "direct", tag := "a"
                  extra := [("mark", .obj [("a", .bool true), ("b", .nat 1)]), ("zone", .null)] }]
  route := some { finalOutbound := some "a" }

theorem faithful_sampleDocument : sampleDocument.toJson.Faithful := by
  have hmark : Json.Legible 3 (.obj [("a", .bool true), ("b", .nat 1)]) := by
    refine List.forall_mem_cons.2 ⟨Json.legible_bool true, ?_⟩
    exact List.forall_mem_cons.2 ⟨Json.legible_nat (by decide), by simp⟩
  have hsettled : sampleDocument.Settled := by
    refine ⟨by simp [sampleDocument], List.forall_mem_cons.2 ⟨?_, by simp⟩⟩
    refine ⟨by simp, by simp, ⟨?_, ?_, ?_⟩, ?_⟩
    · exact List.pairwise_pair.2 (by decide)
    · exact List.forall_mem_cons.2 ⟨by rfl, List.forall_mem_cons.2 ⟨by rfl, by simp⟩⟩
    · simp [outboundNames]
    · exact List.forall_mem_cons.2 ⟨hmark, List.forall_mem_cons.2 ⟨trivial, by simp⟩⟩
  exact hsettled.faithful

theorem roundtrip_sampleDocument :
    Document.decoder sampleValue.sorted = .ok sampleDocument ∧ sampleDocument.toJson.Faithful ∧
    ∃ w, Json.parse? sampleDocument.toJson.pretty = some w ∧ Json.parse? sampleDocument.toJson.compact = some w ∧
      Document.decoder w = .ok sampleDocument ∧ Document.validateJson w = sampleDocument.validate := by
  have hread : Document.decoder sampleValue.sorted = .ok sampleDocument := by rfl
  exact ⟨hread, faithful_sampleDocument,
    Document.roundtrip.1 sampleValue sampleDocument hread faithful_sampleDocument⟩

end Engine

end ProxyFleet
