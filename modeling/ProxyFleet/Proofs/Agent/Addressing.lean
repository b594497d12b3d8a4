import ProxyFleet.Agent.Client
import ProxyFleet.Proofs.Net.Points
import ProxyFleet.Proofs.Net.Target

/-!
# Whom a request to an agent is about

The name of a user is one segment of the path of a request, in percent encoding. That keeps points as they are, and
a segment of points does not arrive: the two names that are made of one and of two points only lead elsewhere.

* `IsUserPath` : a path that is about a user;
* `AgentRequest.segments`, `AgentRequest.received` : the segments that are added to the address of an agent, and what
  arrives of them;
* `AgentRequest.exists_base` : the targets of all requests to an agent;
* `AgentRequest.user_addressed_iff` : which users are asked for by their own path.
-/

namespace ProxyFleet

set_option autoImplicit false

open Net

/-- The path of a request, without the query. -/
def HttpRequest.path (r : HttpRequest) : String := String.ofList (r.target.toList.takeWhile (· ≠ '?'))

/-- A path is that of a user under another: it is the path of the users with one more segment, which is read as the
name of the user. -/
def IsUserPath (base path user : String) : Prop :=
  ∃ segment, path = base ++ "/server/v1/users/" ++ segment ∧ '/' ∉ segment.toList ∧
    Text.percentDecode? segment = some user

/-- The token for an agent, if there is one, can stand in a header. -/
def Endpoint.CanAuthorise (e : Endpoint) : Prop := (e.token.map fun token => s!"Bearer {token}").all isHeaderValue

instance (e : Endpoint) : Decidable e.CanAuthorise :=
  inferInstanceAs (Decidable ((e.token.map fun token => s!"Bearer {token}").all isHeaderValue))

namespace AgentRequest

variable {α : Type}

/-- The user whom a request addresses. -/
def user? : AgentRequest α → Option String
  | get user => some user
  | update user _ => some user
  | delete user => some user
  | _ => none

/-! ## Segments -/

/-- Segments under the agents' interface. -/
def service (segments : List (List Char)) : List (List Char) := "server".toList :: "v1".toList :: segments

/-- The segments that a request adds to the address of the agent. -/
def segments : AgentRequest α → List (List Char)
  | info => service [[]]
  | list => service ["users".toList]
  | get user => service ["users".toList, (Text.percentEncode user).toList]
  | add _ _ => service ["users".toList]
  | update user _ => service ["users".toList, (Text.percentEncode user).toList]
  | delete user => service ["users".toList, (Text.percentEncode user).toList]
  | stats _ => service ["stats".toList]

/-- The query of a request. -/
def query : AgentRequest α → List Char
  | stats true => "?clear=true".toList
  | _ => []

/-- What arrives of the segments of a user. -/
def userReceived (user : String) : List (List Char) :=
  if user = ".." then service [[]]
  else service ["users".toList, (Text.percentEncode (if user = "." then "" else user)).toList]

/-- What arrives of the segments that a request adds to the address of the agent. -/
def received (r : AgentRequest α) : List (List Char) :=
  match r.user? with
  | some user => userReceived user
  | none => r.segments

theorem path_user (user : String) : "/server/v1" ++ userPath user =
    String.ofList (slashed (service ["users".toList, (Text.percentEncode user).toList])) := by
  rw [← String.toList_inj]
  simp [userPath, slashed, service]
  rfl

theorem path_eq (r : AgentRequest α) : "/server/v1" ++ r.path = String.ofList (slashed r.segments ++ r.query) := by
  cases r with
  | info => rfl
  | list => rfl
  | get user => exact (path_user user).trans (congrArg _ (List.append_nil _).symm)
  | add => rfl
  | update user => exact (path_user user).trans (congrArg _ (List.append_nil _).symm)
  | delete user => exact (path_user user).trans (congrArg _ (List.append_nil _).symm)
  | stats clear => cases clear <;> rfl

theorem segments_of_user {r : AgentRequest α} {user : String} (h : r.user? = some user) :
    r.segments = service ["users".toList, (Text.percentEncode user).toList] := by
  cases r <;> cases h <;> rfl

theorem segments_of_none {r : AgentRequest α} (h : r.user? = none) :
    ∃ last ∈ [[], "users".toList, "stats".toList], r.segments = service [last] ∧
      (last = [] ↔ r.action = info.action) := by
  cases r with
  | info => exact ⟨_, by decide, rfl, iff_of_true rfl rfl⟩
  | list => exact ⟨_, by decide, rfl, iff_of_false (by decide) (by decide)⟩
  | get => cases h
  | add => exact ⟨_, by decide, rfl, iff_of_false (by decide) (by simp [action])⟩
  | update => cases h
  | delete => cases h
  | stats => exact ⟨_, by decide, rfl, iff_of_false (by decide) (by simp [action])⟩

theorem resolveSegments_user (done : List (List Char)) (user : String) :
    resolveSegments done (service ["users".toList, (Text.percentEncode user).toList]) = done ++ userReceived user := by
  have hstill : ∀ segment ∈ ["server".toList, "v1".toList, "users".toList],
    isDoubleDot segment = false ∧ isSingleDot segment = false := by decide
  have hfront := resolveSegments_append_of_forall hstill done [(Text.percentEncode user).toList]
  -- the name is the last segment, so that points leave an empty one
  rw [resolveSegments] at hfront
  simp only [isDoubleDot_percentEncode_iff, isSingleDot_percentEncode_iff] at hfront
  refine hfront.trans ?_
  rw [userReceived]
  split_ifs
  · rw [List.dropLast_append_of_ne_nil (List.cons_ne_nil _ _), List.append_assoc]
    rfl
  · rw [List.append_assoc]
    rfl
  · rw [List.append_assoc]
    rfl

theorem resolveSegments_segments (done : List (List Char)) (r : AgentRequest α) :
    resolveSegments done r.segments = done ++ r.received := by
  rw [received]
  cases huser : r.user? with
  | some user => rw [segments_of_user huser, resolveSegments_user]
  | none =>
    obtain ⟨last, hlast, hsegments, -⟩ := segments_of_none huser
    have hstill : ∀ last ∈ [[], "users".toList, "stats".toList], ∀ segment ∈ service [last],
      isDoubleDot segment = false ∧ isSingleDot segment = false := by decide
    rw [hsegments, ← List.append_nil (service [last]), resolveSegments_append_of_forall (hstill last hlast),
      resolveSegments, List.append_nil]

/-! ## Paths -/

theorem plain_service {segments : List (List Char)} (h : Plain segments) : Plain (service segments) :=
  List.forall_mem_append.2 ⟨(by decide : Plain ["server".toList, "v1".toList]), h⟩

theorem plain_user (user : String) : Plain ["users".toList, (Text.percentEncode user).toList] :=
  List.forall_mem_append.2 ⟨(by decide : Plain ["users".toList]),
    List.forall_mem_singleton.2 fun _ hc => Text.isEncoded_of_mem_percentEncode hc⟩

theorem plain_segments (r : AgentRequest α) : Plain r.segments := by
  cases huser : r.user? with
  | some user =>
    rw [segments_of_user huser]
    exact plain_service (plain_user user)
  | none =>
    obtain ⟨last, hlast, hsegments, -⟩ := segments_of_none huser
    have hplain : ∀ last ∈ [[], "users".toList, "stats".toList], Plain [last] := by decide
    rw [hsegments]
    exact plain_service (hplain last hlast)

theorem plain_userReceived (user : String) : Plain (userReceived user) := by
  rw [userReceived]
  split_ifs
  · decide
  · exact plain_service (plain_user _)
  · exact plain_service (plain_user _)

theorem plain_received (r : AgentRequest α) : Plain r.received := by
  rw [received]
  cases r.user? with
  | some user => exact plain_userReceived user
  | none => exact plain_segments r

theorem isQuery_query (r : AgentRequest α) : IsQuery r.query := by
  have hstats : IsQuery "?clear=true".toList :=
    ⟨fun _ hc => (Option.some.inj hc).symm, by decide, by decide⟩
  unfold query
  split
  · exact hstats
  · exact .nil

theorem encodeQuery_query (r : AgentRequest α) : encodeQuery r.query = r.query := by
  unfold query
  split <;> rfl

variable {e : Endpoint}

/-- **The targets of all requests to an agent**: the path of its address, what arrives of the segments, and the
query. -/
theorem exists_base (h : BaseAddress e.baseUrl) : ∃ base : String, '?' ∉ base.toList ∧
    requestTarget? (e.baseUrl ++ "/") = some (base ++ "/") ∧
    ∀ {α : Type} (r : AgentRequest α), requestTarget? s!"{e.baseUrl}/server/v1{r.path}" =
      some (base ++ String.ofList (slashed r.received ++ r.query)) := by
  obtain ⟨done, hdone⟩ := exists_directory h
  refine ⟨String.ofList (writeSegments done), ?_, ?_, fun r => ?_⟩
  · rw [String.toList_ofList]
    exact question_notMem_writeSegments done
  · have hroot := hdone [[]] [] (by decide) (by decide) .nil
    rw [resolveSegments, if_neg (by decide), if_neg (by decide), writeSegments_append, List.append_assoc] at hroot
    exact hroot.trans (congrArg some String.ofList_append)
  · have hne : r.segments ≠ [] := by cases r <;> exact List.cons_ne_nil _ _
    have htarget := hdone r.segments r.query hne (plain_segments r) (isQuery_query r)
    rw [← path_eq, resolveSegments_segments, writeSegments_append, writeSegments_eq (plain_received r),
      encodeQuery_query, List.append_assoc, String.ofList_append] at htarget
    rw [← htarget]
    refine congrArg requestTarget? ?_
    rw [← String.toList_inj]
    simp [toString]

theorem toHttp?_eq (e : Endpoint) (r : AgentRequest α) : r.toHttp? e =
    (requestTarget? s!"{e.baseUrl}/server/v1{r.path}").bind fun target =>
      if (e.token.map fun token => s!"Bearer {token}").all isHeaderValue then
        some { method := r.method, target, authorization := e.token.map fun token => s!"Bearer {token}"
               contentType := r.body?.map fun _ => "application/json"
               userAgent := agentClientName, body := r.body? }
      else none := by
  unfold toHttp?
  refine Option.bind_congr fun target _ => ?_
  dsimp only [guard]
  split_ifs
  · rfl
  · rfl

theorem isSome_toHttp?_iff {r : AgentRequest α} {target : String}
    (h : requestTarget? s!"{e.baseUrl}/server/v1{r.path}" = some target) :
    (r.toHttp? e).isSome ↔ e.CanAuthorise := by
  rw [toHttp?_eq, h, Option.bind_some, Endpoint.CanAuthorise]
  split_ifs with hvalue
  · exact iff_of_true rfl hvalue
  · exact iff_of_false Bool.false_ne_true hvalue

theorem target_of_toHttp? {r : AgentRequest α} {request : HttpRequest} (h : r.toHttp? e = some request) :
    requestTarget? s!"{e.baseUrl}/server/v1{r.path}" = some request.target := by
  rw [toHttp?_eq] at h
  obtain ⟨target, htarget, h⟩ := Option.bind_eq_some_iff.1 h
  split_ifs at h
  obtain rfl := Option.some.inj h
  exact htarget

theorem path_of_target {request : HttpRequest} {base : String} {segments : List (List Char)} {query : List Char}
    (hbase : '?' ∉ base.toList) (hsegments : Plain segments) (hquery : IsQuery query)
    (h : request.target = base ++ String.ofList (slashed segments ++ query)) :
    request.path = base ++ String.ofList (slashed segments) := by
  have hpath : ∀ c ∈ base.toList ++ slashed segments, decide (c ≠ '?') = true := by
    refine List.forall_mem_append.2 ⟨fun c hc => decide_eq_true fun heq => hbase (heq ▸ hc), fun c hc => ?_⟩
    exact decide_eq_true (hsegments.ne_of_mem_slashed hc).1
  rw [HttpRequest.path, h, String.toList_append, String.toList_ofList, ← List.append_assoc,
    List.takeWhile_append_of_pos hpath, hquery.takeWhile_eq, List.append_nil, String.ofList_append,
    String.ofList_toList]

theorem isUserPath_iff {base user : String} {cs : List Char} (h : '/' ∉ cs) :
    IsUserPath base (base ++ String.ofList (slashed (service ["users".toList, cs]))) user ↔
      Text.percentDecode? (String.ofList cs) = some user := by
  have hpath : base ++ String.ofList (slashed (service ["users".toList, cs])) =
      base ++ "/server/v1/users/" ++ String.ofList cs := by
    rw [String.append_assoc, String.append_right_inj, ← String.toList_inj]
    simp [slashed, service]
  constructor
  · rintro ⟨segment, heq, -, hread⟩
    rw [hpath, String.append_right_inj] at heq
    rwa [heq]
  · intro hread
    exact ⟨_, hpath, by rwa [String.toList_ofList], hread⟩

theorem isUserPath_userReceived_iff {base user : String} :
    IsUserPath base (base ++ String.ofList (slashed (userReceived user))) user ↔ user ≠ "." ∧ user ≠ ".." := by
  by_cases hpoints : user = ".."
  · refine iff_of_false ?_ fun hname => hname.2 hpoints
    rintro ⟨segment, hpath, -, -⟩
    rw [userReceived, if_pos hpoints, String.append_assoc, String.append_right_inj] at hpath
    have hlength := congrArg String.length hpath
    rw [String.length_append] at hlength
    exact absurd (Nat.le.intro hlength.symm) (by decide)
  rw [userReceived, if_neg hpoints, isUserPath_iff (fun hslash => absurd (Text.isEncoded_of_mem_percentEncode hslash)
    (by decide)), String.ofList_toList, Text.percentDecode?_percentEncode]
  by_cases hpoint : user = "."
  · rw [if_pos hpoint, hpoint]
    decide
  · rw [if_neg hpoint]
    exact iff_of_true rfl ⟨hpoint, hpoints⟩

theorem service_user_ne (user last : List Char) : service ["users".toList, user] ≠ service [last] := by
  simp [service]

theorem service_percentEncode_eq_iff {user user' : String} :
    service ["users".toList, (Text.percentEncode user).toList] =
      service ["users".toList, (Text.percentEncode user').toList] ↔ user = user' := by
  simp [service, String.toList_inj, Text.percentEncode_injective.eq_iff]

theorem userReceived_eq_iff {user user' : String} :
    userReceived user = userReceived user' ↔ user = user' ∨ user ∈ ["", "."] ∧ user' ∈ ["", "."] := by
  by_cases h : user = ".." <;> by_cases h' : user' = ".."
  · exact iff_of_true (by rw [h, h']) (.inl (h.trans h'.symm))
  -- two points leave no segment under the users
  · refine iff_of_false ?_ ?_
    · rw [userReceived, userReceived, if_pos h, if_neg h']
      exact (service_user_ne _ _).symm
    · simp [h, Ne.symm h']
  · refine iff_of_false ?_ ?_
    · rw [userReceived, userReceived, if_neg h, if_pos h']
      exact service_user_ne _ _
    · simp [h, h']
  -- one point is the same as the empty name, and all else is told apart by its encoding
  · rw [userReceived, userReceived, if_neg h, if_neg h', service_percentEncode_eq_iff]
    grind

theorem userReceived_eq_segments_iff {user : String} {r : AgentRequest α} (h : r.user? = none) :
    userReceived user = r.segments ↔ user = ".." ∧ r.action = info.action := by
  obtain ⟨last, -, hsegments, hlast⟩ := segments_of_none h
  rw [hsegments, ← hlast, userReceived]
  by_cases huser : user = ".."
  · rw [if_pos huser, and_iff_right huser, service, service]
    simp [eq_comm]
  · rw [if_neg huser]
    exact iff_of_false (service_user_ne _ _) fun hpoints => huser hpoints.1

/-- **The requests for a user are sent to the path of that user, unless the name of the user is made of one or of two
points.** One point leads to the path of the empty name, two lead to the path of the request for what an agent is, and
no other name shares a path with another request. -/
theorem user_addressed_iff (h : BaseAddress e.baseUrl) : ∃ base : String,
    requestTarget? (e.baseUrl ++ "/") = some (base ++ "/") ∧
    (∀ {α : Type} (r : AgentRequest α), (r.toHttp? e).isSome ↔ e.CanAuthorise) ∧
    ∀ {α : Type} (r : AgentRequest α) {user : String} {request : HttpRequest}, r.user? = some user →
      r.toHttp? e = some request →
      (IsUserPath base request.path user ↔ user ≠ "." ∧ user ≠ "..") ∧
      ∀ {β : Type} (r' : AgentRequest β) {request' : HttpRequest}, r'.toHttp? e = some request' →
        (request.path = request'.path ↔
          match r'.user? with
          | some user' => user = user' ∨ user ∈ ["", "."] ∧ user' ∈ ["", "."]
          | none => user = ".." ∧ r'.action = info.action) := by
  obtain ⟨base, hbase, hroot, htarget⟩ := exists_base h
  have hpath : ∀ {α : Type} (r : AgentRequest α) {request : HttpRequest}, r.toHttp? e = some request →
      request.path = base ++ String.ofList (slashed r.received) := fun r request hsent =>
    path_of_target hbase (plain_received r) (isQuery_query r)
      (Option.some.inj ((target_of_toHttp? hsent).symm.trans (htarget r)))
  refine ⟨base, hroot, fun r => isSome_toHttp?_iff (htarget r), fun r user request huser hsent => ⟨?_, ?_⟩⟩
  · rw [hpath r hsent, received, huser]
    exact isUserPath_userReceived_iff
  · intro β r' request' hsent'
    have hreceived : request.path = request'.path ↔ r.received = r'.received := by
      rw [hpath r hsent, hpath r' hsent', String.append_right_inj, String.ofList_inj]
      exact ⟨slashed_injective (plain_received r).slash_notMem (plain_received r').slash_notMem, congrArg slashed⟩
    rw [hreceived, received, received, huser]
    cases huser' : r'.user? with
    | some user' => exact userReceived_eq_iff
    | none => exact userReceived_eq_segments_iff huser'

/-- The address of an agent at a path. -/
def sampleEndpoint : Endpoint := ⟨"http://127.0.0.1:9000/vmess", some "s3cret"⟩

theorem baseAddress_sampleEndpoint : BaseAddress sampleEndpoint.baseUrl where
  http := by decide +kernel
  question := by decide +kernel
  hash := by decide +kernel

theorem requestTarget?_sampleEndpoint : requestTarget? (sampleEndpoint.baseUrl ++ "/") = some ("/vmess" ++ "/") := by
  decide +kernel

theorem user_addressed_iff_sampleEndpoint : ∃ request request' : HttpRequest,
    (delete "a b").toHttp? sampleEndpoint = some request ∧ (get "a+b").toHttp? sampleEndpoint = some request' ∧
    IsUserPath "/vmess" request.path "a b" ∧ IsUserPath "/vmess" request'.path "a+b" ∧
    request.path ≠ request'.path := by
  obtain ⟨base, hroot, hsent, hpaths⟩ := user_addressed_iff baseAddress_sampleEndpoint
  obtain rfl : base = "/vmess" :=
    (String.append_left_inj _).1 (Option.some.inj (hroot.symm.trans requestTarget?_sampleEndpoint))
  have htoken : sampleEndpoint.CanAuthorise := by decide +kernel
  obtain ⟨request, hrequest⟩ := Option.isSome_iff_exists.1 ((hsent (delete "a b")).2 htoken)
  obtain ⟨request', hrequest'⟩ := Option.isSome_iff_exists.1 ((hsent (get "a+b")).2 htoken)
  obtain ⟨hown, hother⟩ := hpaths (delete "a b") rfl hrequest
  obtain ⟨hown', -⟩ := hpaths (get "a+b") rfl hrequest'
  refine ⟨request, request', hrequest, hrequest', hown.2 (by decide), hown'.2 (by decide), fun heq => ?_⟩
  have hsame : "a b" = "a+b" ∨ "a b" ∈ ["", "."] ∧ "a+b" ∈ ["", "."] := (hother (get "a+b") hrequest').1 heq
  exact absurd hsame (by decide)

example : ((update "a b" "k2").toHttp? sampleEndpoint).map (·.path) = some "/vmess/server/v1/users/a%20b" := by
  decide +kernel

/-- The user of two points is deleted where an agent is asked for what it is, and the user of one point is asked for
where the user of the empty name is. -/
theorem points_lead_elsewhere :
    ((delete "..").toHttp? sampleEndpoint).map (·.path) = some "/vmess/server/v1/" ∧
    (info.toHttp? sampleEndpoint).map (·.path) = some "/vmess/server/v1/" ∧
    ¬ IsUserPath "/vmess" "/vmess/server/v1/" ".." ∧
    ((get ".").toHttp? sampleEndpoint).map (·.path) = some "/vmess/server/v1/users/" ∧
    ((get "").toHttp? sampleEndpoint).map (·.path) = some "/vmess/server/v1/users/" ∧
    ¬ IsUserPath "/vmess" "/vmess/server/v1/users/" "." := by
  have hpoints : "/vmess/server/v1/" = "/vmess" ++ String.ofList (slashed (userReceived "..")) := by decide +kernel
  have hpoint : "/vmess/server/v1/users/" = "/vmess" ++ String.ofList (slashed (userReceived ".")) := by
    decide +kernel
  refine ⟨by decide +kernel, by decide +kernel, ?_, by decide +kernel, by decide +kernel, ?_⟩
  · rw [hpoints, isUserPath_userReceived_iff]
    decide
  · rw [hpoint, isUserPath_userReceived_iff]
    decide

end AgentRequest

end ProxyFleet
