import ScTransport.Daemon.Moves
import ScTransport.Infra.Bytes

/-!
# The HTTP interface of the daemon

The router of `sct-daemon`: a request for a transfer passes `require_api_token` before its handler,
`/v1/metrics` and `/v1/health` do not. The answer of a handler is fixed by its first critical
section; the rest of it is a task of `Daemon.Step`.

A request is taken as `axum` hands it over: what an extractor refuses is `none`.

* `Served.of_respond`, `ApiMove.of_step` — everything a handler and a step can do
* `Api.reach_daemon` — behind the interface runs the daemon
* `api_guarded` — without the token nothing is read and nothing is changed
-/

namespace ScTransport

open Infra

/-! ## Requests and answers -/

structure ListQuery where
  status : Option String
  limit : Option Nat
  deriving DecidableEq

/-- The routes, with what their extractors yield. -/
inductive Endpoint where
  | submitTransfer (body : Option SubmitTransferRequest)
  | getTransfer (id : Option Uuid)
  | cancelTransfer (id : Option Uuid)
  | updatePriority (id : Option Uuid) (priority : Option Nat)
  | listTransfers (query : Option ListQuery)
  | metrics
  | health
  deriving DecidableEq

/-- The routes above the `route_layer` of `build_router`. -/
def Endpoint.isProtected : Endpoint → Bool
  | .metrics | .health => false
  | _ => true

structure HttpRequest where
  /-- The values of the `Authorization` headers. -/
  authorization : List Bytes
  endpoint : Endpoint
  deriving DecidableEq

structure Health where
  status : String
  version : String
  activeTransfers : Nat
  maxConcurrentTransfers : Nat
  deriving DecidableEq

inductive ApiResponse where
  | unauthorized
  /-- An extractor has refused the request. -/
  | rejected
  | notFound
  | accepted (transferId : Uuid) (status : TransferStatus)
  | noContent
  | record (rec : TransferRecord)
  | rows (rows : List TransferRecord)
  | text (body : String)
  | health (health : Health)
  deriving DecidableEq

/-! ## The token -/

/-- How the crate `http` reads a header as text. A text of visible characters has its own bytes for
a value, and no other value has a text. -/
structure HeaderText where
  isVisible : Char → Bool
  /-- `HeaderValue::to_str` -/
  toStr : Bytes → Option (List Char)
  toStr_eq_some : ∀ value text, toStr value = some text ↔
    (∀ c ∈ text, isVisible c = true) ∧ value = text.map fun c => UInt8.ofNat c.toNat
  visible_scheme : "Bearer ".toList.all isVisible = true

structure ApiConfig where
  /-- `SCT_DAEMON_API_TOKEN`, if it is set. -/
  envToken : Option String
  apiToken : String
  maxConcurrentTransfers : Nat
  /-- `CARGO_PKG_VERSION` -/
  version : String
  headers : HeaderText

def effectiveApiToken (cfg : ApiConfig) : Option String :=
  (cfg.envToken.filter fun s => s ≠ "").or (if cfg.apiToken = "" then none else some cfg.apiToken)

/-- `require_api_token`: whether the request goes on to its handler. -/
def requireApiToken (cfg : ApiConfig) (req : HttpRequest) : Bool :=
  match effectiveApiToken cfg with
  | none => true
  | some expected =>
    ((req.authorization.head?.bind cfg.headers.toStr).bind fun v =>
      v.dropPrefix? "Bearer ".toList).any fun got => decide (got = expected.toList)

/-! ## The handlers -/

/-- The names that `{:?}` prints. -/
def TransferStatus.debug : TransferStatus → String
  | .queued => "Queued"
  | .active => "Active"
  | .completed => "Completed"
  | .failed => "Failed"
  | .cancelled => "Cancelled"

def eqIgnoreAsciiCase (a b : String) : Bool :=
  decide (a.toList.map Char.toLower = b.toList.map Char.toLower)

section Handlers

variable (hashLe : Uuid → Uuid → Bool) (records : Records)

/-- The records in the order of the hash map. -/
def recordValues : List TransferRecord :=
  (records.keys.insertionSort fun a b => hashLe a b).filterMap records.lookup

def listTransfers (query : ListQuery) : List TransferRecord :=
  let rows := recordValues hashLe records
  let rows :=
    match query.status with
    | none => rows
    | some status => rows.filter fun r => eqIgnoreAsciiCase r.status.debug status
  let rows := rows.insertionSort fun a b => a.transferId ≤ b.transferId
  match query.limit with
  | none => rows
  | some limit => rows.take limit

def statusCount (status : TransferStatus) : Nat :=
  ((recordValues hashLe records).filter fun r => r.status = status).length

def metricsBody : String :=
  "sct_active_transfers " ++ toString (statusCount hashLe records .active) ++
    "\nsct_queued_transfers " ++ toString (statusCount hashLe records .queued) ++ "\n"

def healthBody (cfg : ApiConfig) : Health where
  status := "ok"
  version := cfg.version
  activeTransfers := statusCount hashLe records .active
  maxConcurrentTransfers := cfg.maxConcurrentTransfers

end Handlers

/-- What a handler takes from outside: a new id, the clock, the order of the hash map. -/
structure ApiCall where
  fresh : Uuid
  now : Nat
  hashLe : Uuid → Uuid → Bool

/-- An answer that only reads the records. -/
def readRecords (s : DaemonState) (answer : ApiResponse) : Option (ApiResponse × DaemonState) :=
  if s.lockFree then some (answer, s) else none

/-- What is said of a transfer that a handler looks up. -/
def foundOr (s : DaemonState) (t : Uuid) (found : TransferRecord → ApiResponse) : ApiResponse :=
  match s.records.lookup t with
  | none => .notFound
  | some rec => found rec

/-- The handler of the route, up to the end of its first critical section. -/
def respond (cfg : ApiConfig) (s : DaemonState) (call : ApiCall) :
    Endpoint → Option (ApiResponse × DaemonState)
  | .submitTransfer (some req) =>
    (submitTransfer s call.fresh req call.now).map fun s' => (.accepted call.fresh .queued, s')
  | .getTransfer (some t) => readRecords s (foundOr s t .record)
  | .cancelTransfer (some t) =>
    (cancelTransfer s t call.now).map fun s' => (foundOr s t fun _ => .noContent, s')
  | .updatePriority (some t) (some priority) =>
    (updatePriority s t priority call.now).map fun s' => (foundOr s t fun _ => .noContent, s')
  | .listTransfers (some query) =>
    readRecords s (.rows (listTransfers call.hashLe s.records query))
  | .metrics => readRecords s (.text (metricsBody call.hashLe s.records))
  | .health => readRecords s (.health (healthBody call.hashLe s.records cfg))
  | _ => some (.rejected, s)

/-! ## The system -/

structure Api where
  daemon : DaemonState
  /-- Ghost: the requests so far, each with its answer. -/
  log : List (HttpRequest × ApiResponse)

inductive ApiLabel where
  | request (req : HttpRequest) (call : ApiCall)
  /-- A step that is not the first of a handler. -/
  | other (l : DaemonLabel)

def DaemonLabel.isRequest : DaemonLabel → Bool
  | .submit _ _ _ | .cancel _ _ | .patch _ _ _ => true
  | _ => false

/-- Whether the request, if it is one, reaches its handler. -/
def ApiLabel.admitted (cfg : ApiConfig) : ApiLabel → Bool
  | .request req _ => !req.endpoint.isProtected || requireApiToken cfg req
  | .other _ => true

def apiStep (cfg : ApiConfig) (s : Api) : ApiLabel → Option Api
  | .request req call =>
    if !req.endpoint.isProtected || requireApiToken cfg req then
      (respond cfg s.daemon call req.endpoint).map fun r => ⟨r.2, s.log ++ [(req, r.1)]⟩
    else some { s with log := s.log ++ [(req, .unauthorized)] }
  | .other l =>
    if l.isRequest then none
    else (daemonStep s.daemon l).map fun daemon => { s with daemon := daemon }

def api (cfg : ApiConfig) : Lts Api ApiLabel := ⟨apiStep cfg⟩

/-! ## What a step can do -/

/-- Whether the extractors have accepted the request. -/
def Endpoint.extracted : Endpoint → Bool
  | .submitTransfer body => body.isSome
  | .getTransfer id | .cancelTransfer id => id.isSome
  | .updatePriority id priority => id.isSome && priority.isSome
  | .listTransfers query => query.isSome
  | .metrics | .health => true

/-- The transfer that a request names. -/
def Endpoint.target : Endpoint → Option Uuid
  | .getTransfer id | .cancelTransfer id | .updatePriority id _ => id
  | _ => none

/-- Everything a handler can answer, and what it does to the daemon. -/
inductive Served (cfg : ApiConfig) (d : DaemonState) (call : ApiCall) :
    Endpoint → ApiResponse → DaemonState → Prop where
  | rejected {e : Endpoint} (h : e.extracted = false) : Served cfg d call e .rejected d
  | submitted {req : SubmitTransferRequest} {d' : DaemonState}
      (h : daemonStep d (.submit call.fresh req call.now) = some d') :
      Served cfg d call (.submitTransfer (some req)) (.accepted call.fresh .queued) d'
  | unknown {e : Endpoint} {t : Uuid} (ht : e.target = some t) (h : d.records.lookup t = none) :
      Served cfg d call e .notFound d
  | read {t : Uuid} {rec : TransferRecord} (h : d.records.lookup t = some rec) :
      Served cfg d call (.getTransfer (some t)) (.record rec) d
  | cancelled {t : Uuid} {d' : DaemonState} (h : daemonStep d (.cancel t call.now) = some d') :
      Served cfg d call (.cancelTransfer (some t)) .noContent d'
  | patched {t : Uuid} {priority : Nat} {d' : DaemonState}
      (h : daemonStep d (.patch t priority call.now) = some d') :
      Served cfg d call (.updatePriority (some t) (some priority)) .noContent d'
  | listed {query : ListQuery} :
      Served cfg d call (.listTransfers (some query))
        (.rows (listTransfers call.hashLe d.records query)) d
  | measured : Served cfg d call .metrics (.text (metricsBody call.hashLe d.records)) d
  | healthy : Served cfg d call .health (.health (healthBody call.hashLe d.records cfg)) d

section Steps

variable {cfg : ApiConfig} {d d' : DaemonState} {call : ApiCall} {answer : ApiResponse}
  {endpoint : Endpoint}

theorem readRecords_eq {found : ApiResponse} (h : readRecords d found = some (answer, d')) :
    answer = found ∧ d' = d := by
  unfold readRecords at h
  split at h
  · cases h
    exact ⟨rfl, rfl⟩
  · cases h

theorem Served.of_cancelTransfer {t : Uuid} (h : cancelTransfer d t call.now = some d') :
    Served cfg d call (.cancelTransfer (some t)) (foundOr d t fun _ => .noContent) d' := by
  unfold foundOr
  cases hrec : d.records.lookup t with
  | none =>
    have hsame : d' = d := by
      simp only [cancelTransfer, hrec] at h
      split at h
      · cases h; rfl
      · cases h
    rw [hsame]
    exact .unknown rfl hrec
  | some rec => exact .cancelled h

theorem Served.of_updatePriority {t : Uuid} {priority : Nat}
    (h : updatePriority d t priority call.now = some d') :
    Served cfg d call (.updatePriority (some t) (some priority))
      (foundOr d t fun _ => .noContent) d' := by
  unfold foundOr
  cases hrec : d.records.lookup t with
  | none =>
    have hsame : d' = d := by
      simp only [updatePriority, hrec] at h
      split at h
      · cases h; rfl
      · cases h
    rw [hsame]
    exact .unknown rfl hrec
  | some rec => exact .patched h

theorem Served.of_respond (h : respond cfg d call endpoint = some (answer, d')) :
    Served cfg d call endpoint answer d' := by
  cases endpoint with
  | submitTransfer body =>
    cases body with
    | none => cases h; exact .rejected rfl
    | some req =>
      obtain ⟨s', hs, heq⟩ := Option.map_eq_some_iff.mp h
      cases heq
      exact .submitted hs
  | getTransfer id =>
    cases id with
    | none => cases h; exact .rejected rfl
    | some t =>
      obtain ⟨rfl, rfl⟩ := readRecords_eq h
      unfold foundOr
      cases hrec : d'.records.lookup t with
      | none => exact .unknown rfl hrec
      | some rec => exact .read hrec
  | cancelTransfer id =>
    cases id with
    | none => cases h; exact .rejected rfl
    | some t =>
      obtain ⟨s', hs, heq⟩ := Option.map_eq_some_iff.mp h
      cases heq
      exact .of_cancelTransfer hs
  | updatePriority id priority =>
    cases id with
    | none => cases h; exact .rejected rfl
    | some t =>
      cases priority with
      | none => cases h; exact .rejected rfl
      | some priority =>
        obtain ⟨s', hs, heq⟩ := Option.map_eq_some_iff.mp h
        cases heq
        exact .of_updatePriority hs
  | listTransfers query =>
    cases query with
    | none => cases h; exact .rejected rfl
    | some query =>
      obtain ⟨rfl, rfl⟩ := readRecords_eq h
      exact .listed
  | metrics =>
    obtain ⟨rfl, rfl⟩ := readRecords_eq h
    exact .measured
  | health =>
    obtain ⟨rfl, rfl⟩ := readRecords_eq h
    exact .healthy

/-- A handler changes the daemon by a step of the daemon, if at all. -/
theorem Served.step (h : Served cfg d call endpoint answer d') :
    d' = d ∨ ∃ l, daemonStep d l = some d' := by
  cases h with
  | submitted h => exact Or.inr ⟨_, h⟩
  | cancelled h => exact Or.inr ⟨_, h⟩
  | patched h => exact Or.inr ⟨_, h⟩
  | _ => exact Or.inl rfl

/-- Only the layer in front of the handlers refuses a request for want of the token. -/
theorem Served.ne_unauthorized (h : Served cfg d call endpoint answer d') :
    answer ≠ .unauthorized := by
  cases h <;> exact nofun

variable {s s' : Api}

/-- Everything a step of the interface can do. -/
inductive ApiMove (cfg : ApiConfig) (s : Api) : ApiLabel → Api → Prop where
  | served {req : HttpRequest} {call : ApiCall} {answer : ApiResponse} {d : DaemonState}
      (hok : (ApiLabel.request req call).admitted cfg = true)
      (h : Served cfg s.daemon call req.endpoint answer d) :
      ApiMove cfg s (.request req call) ⟨d, s.log ++ [(req, answer)]⟩
  | refused {req : HttpRequest} {call : ApiCall}
      (hok : (ApiLabel.request req call).admitted cfg = false) :
      ApiMove cfg s (.request req call) { s with log := s.log ++ [(req, .unauthorized)] }
  | other {l : DaemonLabel} {d : DaemonState} (h : daemonStep s.daemon l = some d) :
      ApiMove cfg s (.other l) { s with daemon := d }

theorem ApiMove.of_step {l : ApiLabel} (h : (api cfg).step s l = some s') :
    ApiMove cfg s l s' := by
  cases l with
  | request req call =>
    simp only [api, apiStep] at h
    split at h
    · next hok =>
      obtain ⟨⟨answer, d⟩, hr, rfl⟩ := Option.map_eq_some_iff.mp h
      exact .served hok (.of_respond hr)
    · next hok =>
      cases h
      exact .refused (Bool.eq_false_iff.mpr hok)
  | other l =>
    simp only [api, apiStep] at h
    split at h
    · cases h
    · obtain ⟨d, hd, rfl⟩ := Option.map_eq_some_iff.mp h
      exact .other hd

/-- **Behind the interface runs the daemon.** -/
theorem Api.reach_daemon {ok : Api → ApiLabel → Prop} (h : (api cfg).Reach ok s s') :
    ScTransport.daemon.Reach (fun _ _ => True) s.daemon s'.daemon := by
  induction h with
  | refl => exact .refl
  | step _ _ hstep ih =>
    cases ApiMove.of_step hstep with
    | served hok h =>
      rcases h.step with rfl | ⟨l, hl⟩
      · exact ih
      · exact ih.step (l := l) trivial hl
    | refused hok => exact ih
    | other h => exact ih.step trivial h

end Steps

/-! ## The token -/

/-- The first `Authorization` header is `Bearer` and the token, in visible characters. -/
structure HttpRequest.Bears (req : HttpRequest) (H : HeaderText) (token : String) : Prop where
  visible : ∀ c ∈ token.toList, H.isVisible c = true
  header : req.authorization.head? =
    some ("Bearer ".toList ++ token.toList |>.map fun c => UInt8.ofNat c.toNat)

/-- A request passes exactly when it bears the token. -/
theorem requireApiToken_iff {cfg : ApiConfig} {token : String}
    (htoken : effectiveApiToken cfg = some token) {req : HttpRequest} :
    requireApiToken cfg req = true ↔ req.Bears cfg.headers token := by
  unfold requireApiToken
  rw [htoken]
  simp only [Option.any_eq_true, Option.bind_eq_some_iff, List.dropPrefix?_eq_some_iff,
    decide_eq_true_eq, beq_iff_eq]
  constructor
  · rintro ⟨got, ⟨text, ⟨value, hvalue, htext⟩, scheme, rfl, rfl⟩, rfl⟩
    obtain ⟨hvis, rfl⟩ := (cfg.headers.toStr_eq_some _ _).mp htext
    exact ⟨fun c hc => hvis c (List.mem_append_right _ hc), hvalue⟩
  · rintro ⟨hvis, hheader⟩
    have hall : ∀ c ∈ "Bearer ".toList ++ token.toList, cfg.headers.isVisible c = true := by
      intro c hc
      rcases List.mem_append.mp hc with hc | hc
      · exact List.all_eq_true.mp cfg.headers.visible_scheme c hc
      · exact hvis c hc
    have htext := (cfg.headers.toStr_eq_some _ _).mpr ⟨hall, rfl⟩
    exact ⟨token.toList, ⟨_, ⟨_, hheader, htext⟩, _, rfl, rfl⟩, rfl⟩

/-- Exactly the requests for transfers without the token are refused. -/
def Api.Guarded (cfg : ApiConfig) (token : String) (s : Api) : Prop :=
  ∀ e ∈ s.log,
    e.2 = .unauthorized ↔ e.1.endpoint.isProtected = true ∧ ¬ e.1.Bears cfg.headers token

theorem admitted_iff {cfg : ApiConfig} {token : String}
    (htoken : effectiveApiToken cfg = some token) {req : HttpRequest} {call : ApiCall} :
    (ApiLabel.request req call).admitted cfg = true ↔
      ¬ (req.endpoint.isProtected = true ∧ ¬ req.Bears cfg.headers token) := by
  rw [ApiLabel.admitted, Bool.or_eq_true, requireApiToken_iff htoken]
  cases req.endpoint.isProtected <;> simp

theorem Api.Guarded.step {cfg : ApiConfig} {token : String} {s s' : Api} {l : ApiLabel}
    (h : s.Guarded cfg token) (htoken : effectiveApiToken cfg = some token)
    (hstep : (api cfg).step s l = some s') : s'.Guarded cfg token := by
  cases ApiMove.of_step hstep with
  | @served req call answer d hok hserved =>
    intro e he
    rcases List.mem_append.mp he with he | he
    · exact h e he
    · rw [List.mem_singleton.mp he]
      exact iff_of_false hserved.ne_unauthorized ((admitted_iff htoken).mp hok)
  | @refused req call hok =>
    intro e he
    rcases List.mem_append.mp he with he | he
    · exact h e he
    · rw [List.mem_singleton.mp he]
      refine iff_of_true rfl (not_not.mp fun hno => ?_)
      rw [(admitted_iff htoken).mpr hno] at hok
      cases hok
  | other hd => exact h

/-- The log is only written. -/
theorem apiStep_log (cfg : ApiConfig) (s : Api) (l : ApiLabel) :
    (api cfg).step s l =
      ((api cfg).step ⟨s.daemon, []⟩ l).map fun r => ⟨r.daemon, s.log ++ r.log⟩ := by
  cases l with
  | request req call =>
    simp only [api, apiStep]
    split
    · rw [Option.map_map]
      rfl
    · rfl
  | other l =>
    simp only [api, apiStep]
    split
    · rfl
    · rw [Option.map_map]
      simp only [Function.comp_def, List.append_nil]

/-- The answers that came from a handler. -/
def answered (log : List (HttpRequest × ApiResponse)) : List (HttpRequest × ApiResponse) :=
  log.filter fun e => e.2 ≠ .unauthorized

/-- A request that is admitted is answered by its handler. -/
theorem answered_of_admitted {cfg : ApiConfig} {d : DaemonState} {l : ApiLabel} {r : Api}
    (hl : l.admitted cfg = true) (h : (api cfg).step ⟨d, []⟩ l = some r) :
    answered r.log = r.log := by
  cases ApiMove.of_step h with
  | served hok hserved =>
    have hne := hserved.ne_unauthorized
    simp [answered, hne]
  | refused hok => exact absurd (hl.symm.trans hok) (by decide)
  | other hd => rfl

/-- `t` is `s` without the refused requests. -/
structure Api.Without (s t : Api) : Prop where
  daemon : t.daemon = s.daemon
  log : t.log = answered s.log

theorem Api.Without.admitted {cfg : ApiConfig} {s t s₁ : Api} {l : ApiLabel} (h : s.Without t)
    (hl : l.admitted cfg = true) (hs : (api cfg).step s l = some s₁) :
    ∃ t₁, (api cfg).step t l = some t₁ ∧ s₁.Without t₁ := by
  rw [apiStep_log] at hs
  obtain ⟨r, hr, rfl⟩ := Option.map_eq_some_iff.mp hs
  refine ⟨⟨r.daemon, t.log ++ r.log⟩, ?_, rfl, ?_⟩
  · rw [apiStep_log, h.daemon, hr]
    rfl
  · show t.log ++ r.log = (s.log ++ r.log).filter _
    rw [h.log, List.filter_append]
    exact congrArg _ (answered_of_admitted hl hr).symm

theorem Api.Without.refused {cfg : ApiConfig} {s t s₁ : Api} {l : ApiLabel} (h : s.Without t)
    (hl : l.admitted cfg = false) (hs : (api cfg).step s l = some s₁) : s₁.Without t := by
  cases ApiMove.of_step hs with
  | served hok hserved => exact absurd (hl.symm.trans hok) (by decide)
  | refused hok =>
    refine ⟨h.daemon, ?_⟩
    show t.log = (s.log ++ [_]).filter _
    rw [h.log, List.filter_append]
    exact (List.append_nil _).symm
  | other hd => cases hl

/--
**Without the token nothing is read and nothing is changed.** With a token configured, exactly the
requests for transfers whose first `Authorization` header is not `Bearer` and the token are refused;
if a character of the token is not visible, these are all of them. And any run could have done
without the refused requests: the daemon ends in the same state, and all the other requests get the
same answers.
-/
theorem api_guarded {cfg : ApiConfig} {token : String}
    (htoken : effectiveApiToken cfg = some token) {d : DaemonState} {labels : List ApiLabel}
    {s : Api} (h : (api cfg).exec ⟨d, []⟩ labels = some s) :
    (∀ e ∈ s.log,
      e.2 = .unauthorized ↔ e.1.endpoint.isProtected = true ∧ ¬ e.1.Bears cfg.headers token) ∧
      ∃ s', (api cfg).exec ⟨d, []⟩ (labels.filter (ApiLabel.admitted cfg)) = some s' ∧
        s'.daemon = s.daemon ∧ s'.log = s.log.filter fun e => e.2 ≠ .unauthorized := by
  have hguarded : s.Guarded cfg token := (Lts.Reach.of_exec h).invariant
    (fun e he => absurd he List.not_mem_nil) fun hs _ hstep => hs.step htoken hstep
  have hstart : Api.Without ⟨d, []⟩ ⟨d, []⟩ := ⟨rfl, rfl⟩
  obtain ⟨s', hs', hwithout⟩ := Lts.exec_filter (fun hsim hl hs => hsim.admitted hl hs)
    (fun hsim hl hs => hsim.refused hl hs) labels hstart h
  exact ⟨hguarded, s', hs', hwithout.daemon, hwithout.log⟩

/-! ### Three requests, one of them without the token -/

/-- The printable bytes and the tab. -/
def isVisibleAscii (n : Nat) : Bool := (decide (32 ≤ n) && decide (n < 127)) || decide (n = 9)

def headerToStr (value : Bytes) : Option (List Char) :=
  if value.all fun b => isVisibleAscii b.toNat then some (value.map fun b => Char.ofNat b.toNat)
  else none

theorem isVisibleAscii_lt {n : Nat} (h : isVisibleAscii n = true) : n < 127 := by
  simp only [isVisibleAscii, Bool.or_eq_true, Bool.and_eq_true, decide_eq_true_eq] at h
  omega

theorem toNat_charOfByte {b : UInt8} (h : isVisibleAscii b.toNat = true) :
    (Char.ofNat b.toNat).toNat = b.toNat := by
  have hlt := isVisibleAscii_lt h
  have hvalid : b.toNat.isValidChar := Or.inl (by omega)
  rw [Char.ofNat, dif_pos hvalid]
  rfl

theorem toNat_byteOfChar {c : Char} (h : isVisibleAscii c.toNat = true) :
    (UInt8.ofNat c.toNat).toNat = c.toNat := by
  have hlt := isVisibleAscii_lt h
  exact Nat.mod_eq_of_lt (by omega)

theorem headerToStr_eq_some {value : Bytes} {text : List Char} :
    headerToStr value = some text ↔
      (∀ c ∈ text, isVisibleAscii c.toNat = true) ∧
        value = text.map fun c => UInt8.ofNat c.toNat := by
  unfold headerToStr
  constructor
  · intro h
    split at h
    · next hall =>
      cases h
      rw [List.all_eq_true] at hall
      refine ⟨fun c hc => ?_, ?_⟩
      · obtain ⟨b, hb, rfl⟩ := List.mem_map.mp hc
        rw [toNat_charOfByte (hall b hb)]
        exact hall b hb
      · have hback : ∀ b ∈ value, UInt8.ofNat (Char.ofNat b.toNat).toNat = b := fun b hb => by
          rw [toNat_charOfByte (hall b hb), UInt8.ofNat_toNat]
        rw [List.map_map]
        exact ((List.map_congr_left hback).trans (List.map_id' value)).symm
    · cases h
  · rintro ⟨hvis, rfl⟩
    have hall : (text.map fun c => UInt8.ofNat c.toNat).all
        (fun b => isVisibleAscii b.toNat) = true := by
      rw [List.all_eq_true]
      intro b hb
      obtain ⟨c, hc, rfl⟩ := List.mem_map.mp hb
      rw [toNat_byteOfChar (hvis c hc)]
      exact hvis c hc
    have hback : ∀ c ∈ text, Char.ofNat (UInt8.ofNat c.toNat).toNat = c := fun c hc => by
      rw [toNat_byteOfChar (hvis c hc), Char.ofNat_toNat]
    rw [if_pos hall, List.map_map]
    exact congrArg some ((List.map_congr_left hback).trans (List.map_id' text))

def HeaderText.ascii : HeaderText where
  isVisible c := isVisibleAscii c.toNat
  toStr := headerToStr
  toStr_eq_some _ _ := headerToStr_eq_some
  visible_scheme := rfl

/-- The variable is set, but empty. -/
def sampleApi : ApiConfig := ⟨some "", "s3cret", 2, "0.1.0", .ascii⟩

def sampleBearer : List Bytes := ["Bearer s3cret".toList.map fun c => UInt8.ofNat c.toNat]

def sampleCall (fresh : Uuid) : ApiCall := ⟨fresh, 0, fun a b => decide (a ≤ b)⟩

def sampleRequests : List ApiLabel :=
  [.request ⟨[], .submitTransfer (some ⟨"file://a", "b", 5⟩)⟩ (sampleCall 1),
    .request ⟨sampleBearer, .submitTransfer (some ⟨"file://a", "b", 50⟩)⟩ (sampleCall 2),
    .request ⟨[], .metrics⟩ (sampleCall 3)]

theorem sampleRequests_exec :
    ((api sampleApi).exec ⟨sampleBoot, []⟩ sampleRequests).map
      (fun s => s.log.map fun e => decide (e.2 = .unauthorized)) = some [true, false, false] := by
  decide +kernel

theorem sample_guarded :
    ∃ s s', (api sampleApi).exec ⟨sampleBoot, []⟩ sampleRequests = some s ∧
      s.log.map (fun e => decide (e.2 = .unauthorized)) = [true, false, false] ∧
      (api sampleApi).exec ⟨sampleBoot, []⟩
        (sampleRequests.filter (ApiLabel.admitted sampleApi)) = some s' ∧
      s'.daemon = s.daemon := by
  obtain ⟨s, hs, hlog⟩ := Option.map_eq_some_iff.mp sampleRequests_exec
  have htoken : effectiveApiToken sampleApi = some "s3cret" := by decide
  obtain ⟨-, s', hs', hdaemon, -⟩ := api_guarded htoken hs
  exact ⟨s, s', hs, hlog, hs', hdaemon⟩

end ScTransport
