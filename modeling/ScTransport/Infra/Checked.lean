import ScTransport.Infra.Bytes

/-!
# Calls that can panic

A call returns a value, reports an error or panics, and on its way it reserves space. The
operations here are those that panic: indexing, slicing, arithmetic on machine words, and assigning
to or draining a vector.

* `Checked` — the monad of such calls
* `index_of_lt`, `range_of_le`, `assign_of_lt`, `add_of_lt`, `mul_of_lt`, `sub_of_le` — where the
  operations are safe
* `attempt`, `foldlM_ofExcept` — callers that catch errors, and loops
* `Checked.Safe`, `Checked.Safe.bind` — a call that does not panic and reserves only what it may
-/

namespace Infra

/-- Why a call has no value: the error it reports, or a panic. -/
inductive Stop (ε : Type) where
  | error (e : ε)
  | panicked
  deriving DecidableEq

/-- What a call reserves, and how it ends. -/
structure Checked (ρ ε α : Type) where
  reserved : List ρ
  result : Except (Stop ε) α

namespace Checked

variable {ρ ε α β : Type}

def bind (x : Checked ρ ε α) (f : α → Checked ρ ε β) : Checked ρ ε β :=
  match x.result with
  | .error stop => ⟨x.reserved, .error stop⟩
  | .ok a => ⟨x.reserved ++ (f a).reserved, (f a).result⟩

instance : Monad (Checked ρ ε) where
  pure a := ⟨[], .ok a⟩
  bind := bind

def panicked : Checked ρ ε α := ⟨[], .error .panicked⟩

def throw (e : ε) : Checked ρ ε α := ⟨[], .error (.error e)⟩

/-- A call of something that reports errors and does not panic. -/
def ofExcept (x : Except ε α) : Checked ρ ε α := ⟨[], x.mapError .error⟩

def reserve (r : ρ) : Checked ρ ε Unit := ⟨[r], .ok ()⟩

/-- `if let Ok(a) = call(..)`: an error is a value, a panic goes on. -/
def attempt (x : Checked ρ ε α) : Checked ρ ε (Except ε α) :=
  ⟨x.reserved,
    match x.result with
    | .ok a => .ok (.ok a)
    | .error (.error e) => .ok (.error e)
    | .error .panicked => .error .panicked⟩

/-! ## Operations that panic -/

/-- `xs[i]`. -/
def index (xs : List α) (i : Nat) : Checked ρ ε α :=
  match xs[i]? with
  | some a => pure a
  | none => panicked

/-- `&xs[lo..hi]`. -/
def range (xs : List α) (lo hi : Nat) : Checked ρ ε (List α) :=
  if lo ≤ hi ∧ hi ≤ xs.length then pure ((xs.drop lo).take (hi - lo)) else panicked

/-- `xs[i] = a`. -/
def assign (xs : List α) (i : Nat) (a : α) : Checked ρ ε (List α) :=
  if i < xs.length then pure (xs.set i a) else panicked

/-- `a + b` of 64-bit words, with overflow checks. -/
def add (a b : Nat) : Checked ρ ε Nat :=
  if a + b < 2 ^ 64 then pure (a + b) else panicked

/-- `a * b`, likewise. -/
def mul (a b : Nat) : Checked ρ ε Nat :=
  if a * b < 2 ^ 64 then pure (a * b) else panicked

/-- `a - b`, likewise. -/
def sub (a b : Nat) : Checked ρ ε Nat :=
  if b ≤ a then pure (a - b) else panicked

/-- What `xs.drain(..n)` takes out. -/
def drain (n : Nat) (xs : List α) : Checked ρ ε (List α) :=
  if n ≤ xs.length then pure (xs.take n) else panicked

@[simp] theorem pure_bind (a : α) (f : α → Checked ρ ε β) : (pure a >>= f) = f a := rfl

@[simp] theorem ofExcept_ok (a : α) : (ofExcept (.ok a) : Checked ρ ε α) = pure a := rfl

@[simp] theorem attempt_ofExcept (x : Except ε α) :
    (attempt (ofExcept x) : Checked ρ ε (Except ε α)) = pure x := by
  cases x <;> rfl

/-- A loop whose turns do not panic. -/
theorem foldlM_ofExcept {f : β → α → Checked ρ ε β} {f' : β → α → Except ε β}
    (h : ∀ b a, f b a = ofExcept (f' b a)) (xs : List α) (b : β) :
    xs.foldlM f b = ofExcept (xs.foldlM f' b) := by
  induction xs generalizing b with
  | nil => rfl
  | cons a xs ih =>
    rw [List.foldlM_cons, List.foldlM_cons, h]
    cases f' b a with
    | error e => rfl
    | ok b' => exact ih b'

/-- A loop over indices whose turns all return. -/
theorem foldlM_range' {f : β → Nat → Checked ρ ε β} {acc : Nat → β} {k n : Nat}
    (h : ∀ i, k ≤ i → i < k + n → f (acc i) i = pure (acc (i + 1))) :
    (List.range' k n).foldlM f (acc k) = pure (acc (k + n)) := by
  induction n generalizing k with
  | zero => rfl
  | succ n ih =>
    rw [List.range'_succ, List.foldlM_cons, h k le_rfl (by omega), pure_bind,
      ih fun i hi hlt => h i (by omega) (by omega), Nat.succ_add_eq_add_succ]

theorem ofExcept_result_eq_ok {x : Except ε α} {a : α} :
    (ofExcept x : Checked ρ ε α).result = .ok a ↔ x = .ok a := by
  cases x with
  | error e => exact ⟨nofun, nofun⟩
  | ok b =>
    show Except.ok b = Except.ok a ↔ _
    rw [Except.ok.injEq, Except.ok.injEq]

theorem bind_assoc {γ : Type} (x : Checked ρ ε α) (f : α → Checked ρ ε β)
    (g : β → Checked ρ ε γ) : ((x >>= f) >>= g) = (x >>= fun a => f a >>= g) := by
  show Checked.bind (Checked.bind x f) g = Checked.bind x fun a => Checked.bind (f a) g
  unfold bind
  cases x.result with
  | error stop => rfl
  | ok a =>
    dsimp only
    cases (f a).result with
    | error stop => rfl
    | ok b =>
      dsimp only
      rw [List.append_assoc]

/-- A function of what a call returns. -/
theorem mk_bind_pure (r : List ρ) (x : Except ε α) (f : α → β) :
    ((⟨r, x.mapError .error⟩ : Checked ρ ε α) >>= fun a => pure (f a)) =
      ⟨r, (x >>= fun a => pure (f a)).mapError .error⟩ := by
  cases x with
  | error e => rfl
  | ok a =>
    show (⟨r ++ [], _⟩ : Checked ρ ε β) = _
    rw [List.append_nil]
    rfl

theorem index_of_lt {xs : List α} {i : Nat} (h : i < xs.length) :
    (index xs i : Checked ρ ε α) = pure xs[i] := by
  unfold index
  rw [List.getElem?_eq_getElem h]

theorem range_of_le {xs : List α} {lo hi : Nat} (h : lo ≤ hi) (h' : hi ≤ xs.length) :
    (range xs lo hi : Checked ρ ε (List α)) = pure ((xs.drop lo).take (hi - lo)) :=
  if_pos ⟨h, h'⟩

/-- `&bs[lo..lo + n]`. -/
theorem range_slice {bs : Bytes} {lo n : Nat} (h : lo + n ≤ bs.length) :
    (range bs lo (lo + n) : Checked ρ ε Bytes) = pure (slice bs lo n) := by
  rw [range_of_le (Nat.le_add_right lo n) h, Nat.add_sub_cancel_left]
  rfl

theorem assign_of_lt {xs : List α} {i : Nat} (h : i < xs.length) (a : α) :
    (assign xs i a : Checked ρ ε (List α)) = pure (xs.set i a) :=
  if_pos h

theorem add_of_lt {a b : Nat} (h : a + b < 2 ^ 64) :
    (add a b : Checked ρ ε Nat) = pure (a + b) :=
  if_pos h

theorem mul_of_lt {a b : Nat} (h : a * b < 2 ^ 64) :
    (mul a b : Checked ρ ε Nat) = pure (a * b) :=
  if_pos h

theorem sub_of_le {a b : Nat} (h : b ≤ a) : (sub a b : Checked ρ ε Nat) = pure (a - b) :=
  if_pos h

/-! ## Words of four bytes -/

/-- `u32::from_be_bytes([bs[i], bs[i + 1], bs[i + 2], bs[i + 3]])`. -/
def be32At (bs : Bytes) (i : Nat) : Checked ρ ε Nat := do
  let a ← index bs i
  let b ← index bs (i + 1)
  let c ← index bs (i + 2)
  let d ← index bs (i + 3)
  return ofBe32 [a, b, c, d]

theorem be32At_of_le {bs : Bytes} {i : Nat} (h : i + 4 ≤ bs.length) :
    (be32At bs i : Checked ρ ε Nat) = pure (ofBe32 ((bs.drop i).take 4)) := by
  have htake : (bs.drop i).take 4 = [bs[i], bs[i + 1], bs[i + 2], bs[i + 3]] := by
    rw [List.drop_eq_getElem_cons (by omega), List.drop_eq_getElem_cons (by omega),
      List.drop_eq_getElem_cons (by omega), List.drop_eq_getElem_cons (by omega)]
    rfl
  unfold be32At
  rw [index_of_lt (by omega), pure_bind, index_of_lt (by omega), pure_bind,
    index_of_lt (by omega), pure_bind, index_of_lt (by omega), pure_bind, htake]

/-! ## Safety -/

/-- The call does not panic, and whatever it reserves is `fair`. -/
structure Safe (fair : ρ → Prop) (x : Checked ρ ε α) : Prop where
  returns : x.result ≠ .error .panicked
  fair : ∀ r ∈ x.reserved, fair r

variable {fair : ρ → Prop}

theorem ofExcept_returns (x : Except ε α) :
    (ofExcept x : Checked ρ ε α).result ≠ .error .panicked := by
  cases x <;> nofun

theorem safe_ofExcept (x : Except ε α) : (ofExcept x : Checked ρ ε α).Safe fair := by
  cases x <;> exact ⟨nofun, nofun⟩

theorem safe_pure (a : α) : (pure a : Checked ρ ε α).Safe fair := ⟨nofun, nofun⟩

theorem safe_throw (e : ε) : (throw e : Checked ρ ε α).Safe fair := ⟨nofun, nofun⟩

theorem safe_reserve {r : ρ} (h : fair r) : (reserve r : Checked ρ ε Unit).Safe fair := by
  refine ⟨nofun, fun r' hr' => ?_⟩
  rw [List.mem_singleton.mp hr']
  exact h

/-- Two safe calls, one after the other. -/
theorem Safe.bind {x : Checked ρ ε α} {f : α → Checked ρ ε β} (hx : x.Safe fair)
    (hf : ∀ a, x.result = .ok a → (f a).Safe fair) : (x >>= f).Safe fair := by
  show (Checked.bind x f).Safe fair
  unfold Checked.bind
  obtain ⟨reserved, result⟩ := x
  cases result with
  | error stop =>
    refine ⟨fun h => hx.returns ?_, hx.fair⟩
    cases h
    rfl
  | ok a =>
    have hfa := hf a rfl
    refine ⟨hfa.returns, fun r hr => ?_⟩
    rcases List.mem_append.mp hr with hr | hr
    · exact hx.fair r hr
    · exact hfa.fair r hr

/-- A call that reserves at most once. -/
theorem safe_iff {x : Checked ρ ε α} {r : Option ρ} (h : x.reserved = r.toList) :
    x.Safe fair ↔ x.result ≠ .error .panicked ∧ ∀ a, r = some a → fair a := by
  constructor
  · intro hx
    refine ⟨hx.returns, fun a ha => hx.fair a ?_⟩
    rw [h, ha]
    exact List.mem_singleton_self a
  · rintro ⟨hreturns, hfair⟩
    refine ⟨hreturns, fun a ha => hfair a ?_⟩
    rw [h] at ha
    exact Option.mem_toList.mp ha

theorem safe_mk_iff (r : Option ρ) (x : Except ε α) :
    (⟨r.toList, x.mapError .error⟩ : Checked ρ ε α).Safe fair ↔ ∀ a, r = some a → fair a := by
  rw [safe_iff rfl]
  exact and_iff_right (by cases x <;> nofun)

end Checked

end Infra
