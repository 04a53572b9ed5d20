import ScTransport.Transport.KnownHosts

/-!
# The identity of the server

`load_or_create_server_identity` keeps a certificate and its key in two files, so that the pin of a
client outlives a restart of the server. The first start generates the pair, and every later one
reads it. Starts may die anywhere, also in the middle of a write.

* `identity_stable` — if starts do not overlap, every server that ever came up has shown the same
  certificate, and a client that pinned it is never refused
* `unusable_identity_blocks` — a pair of files that do not fit together is never replaced

`SctEndpoint::server` is called for every transfer that is received, so in a daemon starts can
overlap.
-/

namespace ScTransport

open Infra

/-! ## The files -/

@[ext]
structure ServerIdentity where
  cert : Bytes
  key : Bytes
  deriving DecidableEq

/-- `server.crt.der` and `server.key.der`. -/
structure IdentityDir where
  cert : Option Bytes
  key : Option Bytes
  deriving DecidableEq

/-- Where a start of the server is. -/
inductive StartPc where
  -- `load_or_create_server_identity`; `fs::write` first empties the file
  | checkCert
  | checkKey
  | readCert
  | readKey (cert : Bytes)
  | generate
  | createCert (id : ServerIdentity)
  | writeCert (id : ServerIdentity)
  | createKey (id : ServerIdentity)
  | writeKey (id : ServerIdentity)
  -- `ServerConfig::with_single_cert`
  | loaded (id : ServerIdentity)
  | serving (id : ServerIdentity)
  | dead
  deriving DecidableEq

/-- The start is under way. -/
def StartPc.isStarting : StartPc → Bool
  | .serving _ | .dead => false
  | _ => true

/-- A write at the beginning of a file. -/
def overwrite (old new : Bytes) : Bytes := new ++ old.drop new.length

/-- A server and a client of it. -/
structure HostingEnv where
  hash : CertHash
  /-- Whether `rustls` takes the certificate with the key. -/
  usable : ServerIdentity → Bool
  /-- The name by which the client calls the server. -/
  host : HostName

/-- The next step of a start; `fresh` is what `generate_simple_self_signed` returns. -/
def StartPc.next (E : HostingEnv) (dir : IdentityDir) (fresh : ServerIdentity) :
    StartPc → Option (IdentityDir × StartPc)
  | .checkCert => some (dir, if dir.cert.isSome then .checkKey else .generate)
  | .checkKey => some (dir, if dir.key.isSome then .readCert else .generate)
  | .readCert =>
    match dir.cert with
    | some cert => some (dir, .readKey cert)
    | none => some (dir, .dead)
  | .readKey cert =>
    match dir.key with
    | some key => some (dir, .loaded ⟨cert, key⟩)
    | none => some (dir, .dead)
  | .generate => some (dir, .createCert fresh)
  | .createCert id => some ({ dir with cert := some [] }, .writeCert id)
  | .writeCert id =>
    some ({ dir with cert := some (overwrite (dir.cert.getD []) id.cert) }, .createKey id)
  | .createKey id => some ({ dir with key := some [] }, .writeKey id)
  | .writeKey id =>
    some ({ dir with key := some (overwrite (dir.key.getD []) id.key) }, .loaded id)
  | .loaded id => some (dir, if E.usable id then .serving id else .dead)
  | .serving _ | .dead => none

/-- A start dies after it has written `n` bytes. -/
def StartPc.tear (dir : IdentityDir) (n : Nat) : StartPc → Option IdentityDir
  | .writeCert id =>
    some { dir with cert := some (overwrite (dir.cert.getD []) (id.cert.take n)) }
  | .writeKey id => some { dir with key := some (overwrite (dir.key.getD []) (id.key.take n)) }
  | _ => none

/-! ## The system -/

structure Hosting where
  dir : IdentityDir
  starts : List StartPc
  /-- Ghost: what the servers that came up have shown. -/
  served : List ServerIdentity
  /-- The file of the client. -/
  knownHosts : Option (List Char)
  /-- Ghost: whether the client accepted the server, for every contact. -/
  answers : List Bool

inductive HostingLabel where
  | start
  | run (i : Nat) (fresh : ServerIdentity)
  | tear (i n : Nat)
  /-- A start or a server ends, by an error or from outside. -/
  | crash (i : Nat)
  | contact (i : Nat)
  /-- The client contacts somebody else. -/
  | elsewhere (c : Contact)

def StartPc.shown : StartPc → List ServerIdentity
  | .serving id => [id]
  | _ => []

def hostingStep (E : HostingEnv) (s : Hosting) : HostingLabel → Option Hosting
  | .start => some { s with starts := s.starts ++ [.checkCert] }
  | .run i fresh =>
    match s.starts[i]? with
    | none => none
    | some pc =>
      (pc.next E s.dir fresh).map fun r =>
        { s with dir := r.1, starts := s.starts.set i r.2, served := s.served ++ r.2.shown }
  | .tear i n =>
    match s.starts[i]? with
    | none => none
    | some pc =>
      (pc.tear s.dir n).map fun dir => { s with dir := dir, starts := s.starts.set i .dead }
  | .crash i => some { s with starts := s.starts.set i .dead }
  | .contact i =>
    match s.starts[i]? with
    | some (.serving id) =>
      let r := enforceOrPersistKnownHost E.hash s.knownHosts E.host id.cert
      some { s with knownHosts := r.2, answers := s.answers ++ [r.1.toBool] }
    | _ => none
  | .elsewhere c =>
    if c.host = E.host then none
    else some { s with
      knownHosts := (enforceOrPersistKnownHost E.hash s.knownHosts c.host c.cert).2 }

def hosting (E : HostingEnv) : Lts Hosting HostingLabel := ⟨hostingStep E⟩

def Hosting.init (knownHosts : Option (List Char)) : Hosting :=
  ⟨⟨none, none⟩, [], [], knownHosts, []⟩

/-- No start is under way. -/
def Hosting.idle (s : Hosting) : Bool := s.starts.all fun pc => !pc.isStarting

/-- A start begins only when no other is under way. -/
def Hosting.inTurn (s : Hosting) : HostingLabel → Bool
  | .start => s.idle
  | _ => true

/-! ## The invariant -/

/-- What the two files say about the servers so far. -/
structure IdentityDir.Holds (E : HostingEnv) (served : List ServerIdentity) (dir : IdentityDir) :
    Prop where
  cert_of_key : dir.key ≠ none → dir.cert ≠ none
  served : ∀ id ∈ served, dir = ⟨some id.cert, some id.key⟩ ∧ E.usable id = true

/-- What a start has found out, or written, when no other start has written since. -/
def StartPc.Fits (served : List ServerIdentity) (dir : IdentityDir) : StartPc → Prop
  | .checkCert | .dead => True
  | .checkKey => dir.cert ≠ none
  | .readCert => dir.cert ≠ none ∧ dir.key ≠ none
  | .readKey cert => dir.cert = some cert ∧ dir.key ≠ none
  | .generate => dir.key = none
  | .createCert _ => dir.key = none
  | .writeCert _ => dir = ⟨some [], none⟩
  | .createKey id => dir = ⟨some id.cert, none⟩
  | .writeKey id => dir = ⟨some id.cert, some []⟩ ∧ served = []
  | .loaded id => dir = ⟨some id.cert, some id.key⟩
  | .serving id => id ∈ served

section Start

variable {E : HostingEnv} {served : List ServerIdentity} {dir dir' : IdentityDir}
  {fresh : ServerIdentity} {pc pc' : StartPc}

theorem overwrite_nil (new : Bytes) : overwrite [] new = new := by
  simp [overwrite]

theorem IdentityDir.Holds.eq (h : dir.Holds E served) {id id' : ServerIdentity}
    (hid : id ∈ served) (hid' : id' ∈ served) : id = id' := by
  have heq := (h.served id hid).1.symm.trans (h.served id' hid').1
  simp only [IdentityDir.mk.injEq, Option.some.injEq] at heq
  exact ServerIdentity.ext heq.1 heq.2

/-- A server has only come up when there was a key. -/
theorem IdentityDir.Holds.served_nil (h : dir.Holds E served) (hkey : dir.key = none) :
    served = [] := by
  refine List.eq_nil_iff_forall_not_mem.mpr fun id hid => ?_
  rw [(h.served id hid).1] at hkey
  cases hkey

/-- Before a server has come up, any two files will do. -/
theorem IdentityDir.Holds.nil (h : dir.key ≠ none → dir.cert ≠ none) : dir.Holds E [] :=
  ⟨h, fun _ hid => absurd hid List.not_mem_nil⟩

/-- A step of a start keeps to what the files say. -/
theorem StartPc.Fits.next (hfits : pc.Fits served dir) (hd : dir.Holds E served)
    (h : pc.next E dir fresh = some (dir', pc')) :
    dir'.Holds E (served ++ pc'.shown) ∧ pc'.Fits (served ++ pc'.shown) dir' := by
  have hkeep : dir.Holds E (served ++ []) := by rwa [List.append_nil]
  cases pc with
  | checkCert =>
    cases h
    by_cases hcert : dir.cert.isSome
    · rw [if_pos hcert]
      exact ⟨hkeep, Option.isSome_iff_ne_none.mp hcert⟩
    · rw [if_neg hcert]
      have hno : dir.cert = none := Option.not_isSome_iff_eq_none.mp hcert
      exact ⟨hkeep, not_not.mp fun hkey => hd.cert_of_key hkey hno⟩
  | checkKey =>
    cases h
    by_cases hkey : dir.key.isSome
    · rw [if_pos hkey]
      exact ⟨hkeep, hfits, Option.isSome_iff_ne_none.mp hkey⟩
    · rw [if_neg hkey]
      exact ⟨hkeep, Option.not_isSome_iff_eq_none.mp hkey⟩
  | readCert =>
    simp only [StartPc.next] at h
    split at h
    · next cert hcert =>
      cases h
      exact ⟨hkeep, hcert, hfits.2⟩
    · next hcert => exact absurd hcert hfits.1
  | readKey cert =>
    simp only [StartPc.next] at h
    split at h
    · next key hkey =>
      cases h
      refine ⟨hkeep, ?_⟩
      show dir = ⟨some cert, some key⟩
      rw [← hfits.1, ← hkey]
    · next hkey => exact absurd hkey hfits.2
  | generate =>
    cases h
    exact ⟨hkeep, hfits⟩
  | createCert id =>
    cases h
    have hkey : dir.key = none := hfits
    rw [hd.served_nil hkey]
    refine ⟨.nil fun hno => absurd hkey hno, ?_⟩
    show (⟨some [], dir.key⟩ : IdentityDir) = ⟨some [], none⟩
    rw [hkey]
  | writeCert id =>
    cases h
    have hdir : dir = ⟨some [], none⟩ := hfits
    rw [hd.served_nil (by rw [hdir]), hdir]
    refine ⟨.nil fun hno => absurd rfl hno, ?_⟩
    show (⟨some (overwrite [] id.cert), none⟩ : IdentityDir) = ⟨some id.cert, none⟩
    rw [overwrite_nil]
  | createKey id =>
    cases h
    have hdir : dir = ⟨some id.cert, none⟩ := hfits
    rw [hd.served_nil (by rw [hdir]), hdir]
    exact ⟨.nil fun _ => nofun, rfl, rfl⟩
  | writeKey id =>
    cases h
    obtain ⟨hdir, hserved⟩ := hfits
    rw [hserved, hdir]
    refine ⟨.nil fun _ => nofun, ?_⟩
    show (⟨some id.cert, some (overwrite [] id.key)⟩ : IdentityDir) = ⟨some id.cert, some id.key⟩
    rw [overwrite_nil]
  | loaded id =>
    cases h
    have hdir : dir = ⟨some id.cert, some id.key⟩ := hfits
    by_cases husable : E.usable id = true
    · rw [if_pos husable]
      refine ⟨⟨hd.cert_of_key, fun id' hid' => ?_⟩, List.mem_append_right _ List.mem_cons_self⟩
      rcases List.mem_append.mp hid' with hid' | hid'
      · exact hd.served id' hid'
      · rw [List.mem_singleton.mp hid']
        exact ⟨hdir, husable⟩
    · rw [if_neg husable]
      exact ⟨hkeep, trivial⟩
  | serving id => cases h
  | dead => cases h

/-- A torn write leaves files that no server has shown. -/
theorem StartPc.Fits.tear {n : Nat} (hfits : pc.Fits served dir) (hd : dir.Holds E served)
    (h : pc.tear dir n = some dir') : dir'.Holds E served := by
  cases pc with
  | writeCert id =>
    cases h
    have hdir : dir = ⟨some [], none⟩ := hfits
    rw [hd.served_nil (by rw [hdir]), hdir]
    exact .nil fun hno => absurd rfl hno
  | writeKey id =>
    cases h
    obtain ⟨hdir, hserved⟩ := hfits
    rw [hserved, hdir]
    exact .nil fun _ => nofun
  | _ => cases h

theorem StartPc.isStarting_of_next (h : pc.next E dir fresh = some (dir', pc')) :
    pc.isStarting = true := by
  cases pc with
  | serving id => cases h
  | dead => cases h
  | _ => rfl

theorem StartPc.isStarting_of_tear {n : Nat} (h : pc.tear dir n = some dir') :
    pc.isStarting = true := by
  cases pc with
  | writeCert id => rfl
  | writeKey id => rfl
  | _ => cases h

/-- A start that is over does not look at the files. -/
theorem StartPc.Fits.of_over (hfits : pc.Fits served dir) (hover : pc.isStarting = false)
    (more : List ServerIdentity) : pc.Fits (served ++ more) dir' := by
  cases pc with
  | serving id => exact List.mem_append_left _ hfits
  | dead => trivial
  | _ => cases hover

end Start

/-- What holds when starts do not overlap. -/
structure Hosting.Stable (E : HostingEnv) (s : Hosting) : Prop where
  alone : ∀ {i j : Nat} {pc pc' : StartPc}, s.starts[i]? = some pc → s.starts[j]? = some pc' →
    pc.isStarting = true → pc'.isStarting = true → i = j
  dir : s.dir.Holds E s.served
  starts : ∀ {i : Nat} {pc : StartPc}, s.starts[i]? = some pc → pc.Fits s.served s.dir
  pin : (loadKnownHosts s.knownHosts).lookup E.host.chars = none ∨ ∃ id ∈ s.served,
    (loadKnownHosts s.knownHosts).lookup E.host.chars = some (fingerprint E.hash id.cert)
  answers : ∀ a ∈ s.answers, a = true

section Stable

variable {E : HostingEnv} {s s' : Hosting} {l : HostingLabel}

theorem Hosting.Stable.init {knownHosts : Option (List Char)}
    (hnew : (loadKnownHosts knownHosts).lookup E.host.chars = none) :
    (Hosting.init knownHosts).Stable E where
  alone hi := by cases hi
  dir := .nil nofun
  starts hi := by cases hi
  pin := Or.inl hnew
  answers a ha := absurd ha List.not_mem_nil

theorem Hosting.idle_iff :
    s.idle = true ↔ ∀ (i : Nat) (pc : StartPc), s.starts[i]? = some pc →
      pc.isStarting = false := by
  unfold Hosting.idle
  rw [List.all_eq_true]
  constructor
  · intro h i pc hi
    simpa using h pc (List.mem_of_getElem? hi)
  · intro h pc hpc
    obtain ⟨i, hi⟩ := List.mem_iff_getElem?.mp hpc
    simp [h i pc hi]

theorem Hosting.Stable.started (h : s.Stable E) (hidle : s.idle = true) :
    { s with starts := s.starts ++ [StartPc.checkCert] }.Stable E := by
  have hover := Hosting.idle_iff.mp hidle
  refine { h with alone := fun hi hj hpc hpc' => ?_, starts := fun hi => ?_ }
  · rcases getElem?_concat_cases hi with hi | ⟨hi, -⟩
    · exact absurd ((hover _ _ hi).symm.trans hpc) (by decide)
    · rcases getElem?_concat_cases hj with hj | ⟨hj, -⟩
      · exact absurd ((hover _ _ hj).symm.trans hpc') (by decide)
      · exact hi.trans hj.symm
  · rcases getElem?_concat_cases hi with hi | ⟨-, rfl⟩
    · exact h.starts hi
    · trivial

/-- A step of the start that is under way: the others are over. -/
theorem Hosting.Stable.moved (h : s.Stable E) {i : Nat} {pc pc' : StartPc}
    (hi : s.starts[i]? = some pc) (hpc : pc.isStarting = true) {dir : IdentityDir}
    {more : List ServerIdentity} (hd : dir.Holds E (s.served ++ more))
    (hfits : pc'.Fits (s.served ++ more) dir) :
    { s with dir := dir, starts := s.starts.set i pc', served := s.served ++ more }.Stable E where
  alone hj hk hpj hpk := by
    have hplace : ∀ {j : Nat} {q : StartPc}, (s.starts.set i pc')[j]? = some q →
        q.isStarting = true → j = i := by
      intro j q hj hq
      rcases getElem?_set_cases hj with ⟨hji, -⟩ | ⟨-, hj⟩
      · exact hji
      · exact h.alone hj hi hq hpc
    exact (hplace hj hpj).trans (hplace hk hpk).symm
  dir := hd
  starts {j q} hj := by
    rcases getElem?_set_cases hj with ⟨rfl, rfl⟩ | ⟨hji, hj⟩
    · exact hfits
    · have hover : q.isStarting = false :=
        Bool.eq_false_iff.mpr fun hq => hji (h.alone hj hi hq hpc)
      exact (h.starts hj).of_over hover more
  pin := h.pin.imp_right fun ⟨id, hid, hpin⟩ => ⟨id, List.mem_append_left _ hid, hpin⟩
  answers := h.answers

theorem Hosting.Stable.crashed (h : s.Stable E) (i : Nat) :
    { s with starts := s.starts.set i .dead }.Stable E := by
  refine { h with alone := fun hj hk hpj hpk => ?_, starts := fun hj => ?_ }
  · rcases getElem?_set_cases hj with ⟨-, rfl⟩ | ⟨-, hj⟩
    · cases hpj
    · rcases getElem?_set_cases hk with ⟨-, rfl⟩ | ⟨-, hk⟩
      · cases hpk
      · exact h.alone hj hk hpj hpk
  · rcases getElem?_set_cases hj with ⟨-, rfl⟩ | ⟨-, hj⟩
    · trivial
    · exact h.starts hj

/-- The server is accepted, by its first contact or by the pin of that. -/
theorem Hosting.Stable.contacted (h : s.Stable E) {id : ServerIdentity} (hid : id ∈ s.served) :
    { s with
      knownHosts := (enforceOrPersistKnownHost E.hash s.knownHosts E.host id.cert).2
      answers := s.answers ++
        [(enforceOrPersistKnownHost E.hash s.knownHosts E.host id.cert).1.toBool] }.Stable E := by
  have hanswers : ∀ {r : Except KnownHostError Unit}, r = .ok () →
      ∀ a ∈ s.answers ++ [r.toBool], a = true := by
    rintro r rfl a ha
    rcases List.mem_append.mp ha with ha | ha
    · exact h.answers a ha
    · exact List.mem_singleton.mp ha
  rcases h.pin with hnew | ⟨id', hid', hlisted⟩
  · refine { h with
      pin := Or.inr ⟨id, hid, ?_⟩, answers := hanswers (enforce_of_new hnew id.cert).1 }
    exact ((enforce_of_new hnew id.cert).2 _).trans (if_pos rfl)
  · have hsame : fingerprint E.hash id'.cert = fingerprint E.hash id.cert := by
      rw [h.dir.eq hid' hid]
    refine { h with
      pin := Or.inr ⟨id', hid', ?_⟩
      answers := hanswers ((enforce_of_listed hlisted id.cert).2.mpr hsame) }
    dsimp only
    rw [(enforce_of_listed hlisted id.cert).1]
    exact hlisted

/-- The pin of the server does not depend on whom else the client contacts. -/
theorem Hosting.Stable.elsewhere (h : s.Stable E) {c : Contact} (hc : c.host ≠ E.host) :
    { s with
      knownHosts :=
        (enforceOrPersistKnownHost E.hash s.knownHosts c.host c.cert).2 }.Stable E := by
  have hsame : (loadKnownHosts
      (enforceOrPersistKnownHost E.hash s.knownHosts c.host c.cert).2).lookup E.host.chars =
        (loadKnownHosts s.knownHosts).lookup E.host.chars := by
    cases hl : (loadKnownHosts s.knownHosts).lookup c.host.chars with
    | some existing => rw [(enforce_of_listed hl c.cert).1]
    | none =>
      refine ((enforce_of_new hl c.cert).2 _).trans (if_neg fun heq => hc ?_)
      exact HostName.ext heq.symm
  refine { h with pin := ?_ }
  dsimp only
  rw [hsame]
  exact h.pin

theorem Hosting.Stable.step (h : s.Stable E) (hok : s.inTurn l = true)
    (hstep : (hosting E).step s l = some s') : s'.Stable E := by
  cases l with
  | start =>
    cases hstep
    exact h.started hok
  | run i fresh =>
    simp only [hosting, hostingStep] at hstep
    split at hstep
    · cases hstep
    · next pc hi =>
      obtain ⟨⟨dir, pc'⟩, hnext, rfl⟩ := Option.map_eq_some_iff.mp hstep
      obtain ⟨hd, hfits⟩ := (h.starts hi).next h.dir hnext
      exact h.moved hi (StartPc.isStarting_of_next hnext) hd hfits
  | tear i n =>
    simp only [hosting, hostingStep] at hstep
    split at hstep
    · cases hstep
    · next pc hi =>
      obtain ⟨dir, htear, rfl⟩ := Option.map_eq_some_iff.mp hstep
      have hd := (h.starts hi).tear h.dir htear
      have hmoved : Hosting.Stable E { s with
          dir := dir, starts := s.starts.set i StartPc.dead, served := s.served ++ [] } :=
        h.moved hi (StartPc.isStarting_of_tear htear) (by rwa [List.append_nil]) trivial
      rwa [List.append_nil] at hmoved
  | crash i =>
    cases hstep
    exact h.crashed i
  | contact i =>
    simp only [hosting, hostingStep] at hstep
    split at hstep
    · next id hi =>
      cases hstep
      exact h.contacted (h.starts hi)
    · cases hstep
  | elsewhere c =>
    simp only [hosting, hostingStep] at hstep
    split at hstep
    · cases hstep
    · next hc =>
      cases hstep
      exact h.elsewhere hc

/-- A step of the last start. -/
theorem run_last {starts : List StartPc} {pc pc' : StartPc} {dir dir' : IdentityDir}
    {fresh : ServerIdentity} (h : pc.next E dir fresh = some (dir', pc'))
    (served : List ServerIdentity) (knownHosts : Option (List Char)) (answers : List Bool) :
    (hosting E).step ⟨dir, starts ++ [pc], served, knownHosts, answers⟩
        (.run starts.length fresh) =
      some ⟨dir', starts ++ [pc'], served ++ pc'.shown, knownHosts, answers⟩ := by
  simp only [hosting, hostingStep, List.getElem?_concat_length, h, Option.map_some,
    List.set_append_right _ _ (le_refl starts.length), Nat.sub_self, List.set_cons_zero]

/-- With the files of a usable pair, a start comes up with that pair. -/
theorem start_comes_up {id : ServerIdentity} (hdir : s.dir = ⟨some id.cert, some id.key⟩)
    (husable : E.usable id = true) (fresh : ServerIdentity) :
    ∃ s', (hosting E).exec s (.start :: List.replicate 5 (.run s.starts.length fresh)) = some s' ∧
      s'.served = s.served ++ [id] := by
  obtain ⟨dir, starts, served, knownHosts, answers⟩ := s
  cases hdir
  have hserving : (StartPc.loaded id).next E ⟨some id.cert, some id.key⟩ fresh =
      some (⟨some id.cert, some id.key⟩, .serving id) := by
    simp only [StartPc.next, husable, if_true]
  have hcheckCert : StartPc.checkCert.next E ⟨some id.cert, some id.key⟩ fresh =
    some (⟨some id.cert, some id.key⟩, .checkKey) := rfl
  have hcheckKey : StartPc.checkKey.next E ⟨some id.cert, some id.key⟩ fresh =
    some (⟨some id.cert, some id.key⟩, .readCert) := rfl
  have hreadCert : StartPc.readCert.next E ⟨some id.cert, some id.key⟩ fresh =
    some (⟨some id.cert, some id.key⟩, .readKey id.cert) := rfl
  have hreadKey : (StartPc.readKey id.cert).next E ⟨some id.cert, some id.key⟩ fresh =
    some (⟨some id.cert, some id.key⟩, .loaded id) := rfl
  refine ⟨⟨⟨some id.cert, some id.key⟩, starts ++ [.serving id], served ++ [] ++ [] ++ [] ++ [] ++
    [id], knownHosts, answers⟩, ?_, by simp⟩
  show (hosting E).exec ⟨_, starts ++ [.checkCert], served, knownHosts, answers⟩
    (List.replicate 5 (.run starts.length fresh)) = _
  simp only [List.replicate_succ, List.replicate_zero, Lts.exec, run_last hcheckCert,
    run_last hcheckKey, run_last hreadCert, run_last hreadKey, run_last hserving]
  rfl

/--
**The identity is stable.** From an empty directory, let starts happen one after the other, each of
them perhaps dying at any point, also in the middle of a write. Then every server that has come up
has shown the same certificate and key; a client that had no pin for the server has accepted it at
every contact, whomever else it contacted; and after the first server, a start that runs to its end
comes up with the same pair again.
-/
theorem identity_stable {knownHosts : Option (List Char)}
    (hnew : (loadKnownHosts knownHosts).lookup E.host.chars = none)
    (h : (hosting E).Reach (fun s l => s.inTurn l = true) (.init knownHosts) s) :
    (∀ id ∈ s.served, ∀ id' ∈ s.served, id = id') ∧ (∀ a ∈ s.answers, a = true) ∧
      ∀ id ∈ s.served, ∀ fresh, ∃ s', (hosting E).exec s
          (.start :: List.replicate 5 (.run s.starts.length fresh)) = some s' ∧
        s'.served = s.served ++ [id] := by
  have hstable : s.Stable E := h.invariant (.init hnew) fun hs hok hstep => hs.step hok hstep
  refine ⟨fun id hid id' hid' => hstable.dir.eq hid hid', hstable.answers, ?_⟩
  intro id hid fresh
  obtain ⟨hdir, husable⟩ := hstable.dir.served id hid
  exact start_comes_up hdir husable fresh

end Stable

/-! ### Starts in turn, and two that overlap -/

theorem isWord_h : IsWord ['h'] where
  ne_nil := nofun
  no_space c hc := by
    rw [List.mem_singleton.mp hc]
    rfl

/-- A certificate fits the key with the same bytes. -/
def sampleHosting : HostingEnv where
  hash := .reference
  usable := fun id => decide (id.cert = id.key)
  host := ⟨['h'], isWord_h⟩

/-- The first start, a contact, a restart, and a contact again. -/
def sampleRestart : List HostingLabel :=
  .start :: List.replicate 7 (.run 0 ⟨[97], [97]⟩) ++ [.contact 0, .crash 0, .start] ++
    List.replicate 5 (.run 1 ⟨[98], [98]⟩) ++ [.contact 1]

theorem sampleRestart_exec :
    ((hosting sampleHosting).execWhere Hosting.inTurn (.init none) sampleRestart).map
      (fun s => (s.served, s.answers)) = some ([⟨[97], [97]⟩, ⟨[97], [97]⟩], [true, true]) := by
  decide +kernel

theorem sample_identity :
    ∃ s, (hosting sampleHosting).execWhere Hosting.inTurn (.init none) sampleRestart = some s ∧
      s.answers.length = 2 ∧ ∀ a ∈ s.answers, a = true := by
  obtain ⟨s, hs, hlog⟩ := Option.map_eq_some_iff.mp sampleRestart_exec
  have hanswers : s.answers = [true, true] := congrArg Prod.snd hlog
  exact ⟨s, hs, by rw [hanswers]; rfl, (identity_stable rfl (.of_execWhere hs)).2.1⟩

-- both find no certificate, so the second overwrites the pair that the client has pinned
example : ((hosting sampleHosting).exec (.init none)
    ([.start, .start, .run 0 ⟨[], []⟩, .run 1 ⟨[], []⟩] ++
      List.replicate 6 (.run 0 ⟨[97], [97]⟩) ++ [.contact 0] ++
      List.replicate 6 (.run 1 ⟨[98], [98]⟩) ++ [.contact 1])).map Hosting.answers =
    some [true, false] := by
  decide +kernel

/-! ## Files that do not fit together -/

/-- The start only reads the two files. -/
def StartPc.Reads (id : ServerIdentity) : StartPc → Prop
  | .checkCert | .checkKey | .readCert | .serving _ | .dead => True
  | .readKey cert => cert = id.cert
  | .loaded id' => id' = id
  | _ => False

section Blocked

variable {E : HostingEnv} {s s' : Hosting} {id : ServerIdentity}

/-- With two files that do not fit together, a start gets nowhere. -/
theorem StartPc.Reads.next {pc pc' : StartPc} {dir' : IdentityDir} {fresh : ServerIdentity}
    (hpc : pc.Reads id) (hbad : E.usable id = false)
    (h : pc.next E ⟨some id.cert, some id.key⟩ fresh = some (dir', pc')) :
    dir' = ⟨some id.cert, some id.key⟩ ∧ pc'.Reads id ∧ pc'.shown = [] := by
  cases pc with
  | checkCert => cases h; exact ⟨rfl, trivial, rfl⟩
  | checkKey => cases h; exact ⟨rfl, trivial, rfl⟩
  | readCert => cases h; exact ⟨rfl, rfl, rfl⟩
  | readKey cert =>
    cases h
    cases hpc
    exact ⟨rfl, rfl, rfl⟩
  | loaded id' =>
    cases hpc
    simp only [StartPc.next, hbad] at h
    cases h
    exact ⟨rfl, trivial, rfl⟩
  | serving id' => cases h
  | dead => cases h
  | _ => exact hpc.elim

/-- No server has come up since, and the files are as they were. -/
structure Hosting.Blocked (id : ServerIdentity) (served : List ServerIdentity) (s : Hosting) :
    Prop where
  dir : s.dir = ⟨some id.cert, some id.key⟩
  served : s.served = served
  starts : ∀ {i : Nat} {pc : StartPc}, s.starts[i]? = some pc → pc.Reads id

theorem Hosting.Blocked.step {served : List ServerIdentity} {l : HostingLabel}
    (h : s.Blocked id served) (hbad : E.usable id = false)
    (hstep : (hosting E).step s l = some s') : s'.Blocked id served := by
  cases l with
  | start =>
    cases hstep
    refine ⟨h.dir, h.served, fun hi => ?_⟩
    rcases getElem?_concat_cases hi with hi | ⟨-, rfl⟩
    · exact h.starts hi
    · trivial
  | run i fresh =>
    simp only [hosting, hostingStep] at hstep
    split at hstep
    · cases hstep
    · next pc hi =>
      obtain ⟨⟨dir, pc'⟩, hnext, rfl⟩ := Option.map_eq_some_iff.mp hstep
      rw [h.dir] at hnext
      obtain ⟨hdir, hpc', hshown⟩ := (h.starts hi).next hbad hnext
      refine ⟨hdir, ?_, fun hj => ?_⟩
      · show s.served ++ pc'.shown = served
        rw [hshown, List.append_nil, h.served]
      · rcases getElem?_set_cases hj with ⟨-, rfl⟩ | ⟨-, hj⟩
        · exact hpc'
        · exact h.starts hj
  | tear i n =>
    simp only [hosting, hostingStep] at hstep
    split at hstep
    · cases hstep
    · next pc hi =>
      obtain ⟨dir, htear, -⟩ := Option.map_eq_some_iff.mp hstep
      have hreads := h.starts hi
      cases pc with
      | writeCert id' => exact hreads.elim
      | writeKey id' => exact hreads.elim
      | _ => cases htear
  | crash i =>
    cases hstep
    refine ⟨h.dir, h.served, fun hj => ?_⟩
    rcases getElem?_set_cases hj with ⟨-, rfl⟩ | ⟨-, hj⟩
    · trivial
    · exact h.starts hj
  | contact i =>
    simp only [hosting, hostingStep] at hstep
    split at hstep
    · cases hstep
      exact ⟨h.dir, h.served, h.starts⟩
    · cases hstep
  | elsewhere c =>
    simp only [hosting, hostingStep] at hstep
    split at hstep
    · cases hstep
    · cases hstep
      exact ⟨h.dir, h.served, h.starts⟩

/--
**Files that do not fit together are never replaced.** If both files exist and cannot be used
together, as after a start that died while it wrote the key, then no later start comes up, however
many there are and even if they overlap; the files stay as they are.
-/
theorem unusable_identity_blocks (hdir : s.dir = ⟨some id.cert, some id.key⟩)
    (hbad : E.usable id = false) (hidle : s.idle = true)
    (h : (hosting E).Reach (fun _ _ => True) s s') :
    s'.dir = s.dir ∧ s'.served = s.served := by
  have hstart : s.Blocked id s.served := by
    refine ⟨hdir, rfl, fun {i pc} hi => ?_⟩
    have hover := Hosting.idle_iff.mp hidle i pc hi
    cases pc with
    | serving id' => trivial
    | dead => trivial
    | _ => cases hover
  have hblocked : s'.Blocked id s.served := h.invariant hstart fun hs _ hstep => hs.step hbad hstep
  exact ⟨hblocked.dir.trans hdir.symm, hblocked.served⟩

/-- The first start dies when it has emptied the key file. -/
def sampleTorn : Hosting := ⟨⟨some [97], some []⟩, [.dead], [], none, []⟩

theorem sample_blocked :
    ∃ s, (hosting sampleHosting).exec (.init none)
        (.start :: List.replicate 5 (.run 0 ⟨[97], [97]⟩) ++ [.tear 0 0]) = some sampleTorn ∧
      (hosting sampleHosting).exec sampleTorn
        (.start :: List.replicate 5 (.run 1 ⟨[98], [98]⟩)) = some s ∧ s.served = [] := by
  have htorn : (hosting sampleHosting).exec (.init none)
      (.start :: List.replicate 5 (.run 0 ⟨[97], [97]⟩) ++ [.tear 0 0]) = some sampleTorn := rfl
  have hruns : ((hosting sampleHosting).exec sampleTorn
      (.start :: List.replicate 5 (.run 1 ⟨[98], [98]⟩))).isSome = true := by decide +kernel
  obtain ⟨s, hs⟩ := Option.isSome_iff_exists.mp hruns
  have hbad : sampleHosting.usable ⟨[97], []⟩ = false := by decide
  have hdir : sampleTorn.dir = ⟨some (ServerIdentity.mk [97] []).cert, some []⟩ := rfl
  exact ⟨s, htorn, hs, (unusable_identity_blocks hdir hbad (by decide) (.of_exec hs)).2⟩

end Blocked

end ScTransport
