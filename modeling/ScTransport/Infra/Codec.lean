import ScTransport.Infra.Varint
import Mathlib.Logic.Equiv.Defs

/-!
# A positional codec, and derived readers of records

Values are written without names, lengths of records or types: a record is its fields one after
the other. A reader of a record asks for its fields in order. The access it asks says that there
are no more fields when it has handed out as many as the record declares, and only then a field
takes its default.

* `Codec` — writing and reading a value, with the laws every codec here has
* `Visit`, `field`, `fieldOr` — readers of records
* `field_bind`, `fieldOr_bind`, `fieldOr_bind_nil`, `fieldOr_bind_done` — what one field does
* `Record` — a record of which an older form has fewer fields
-/

namespace Infra

/-- What is written is read back, whatever follows it; and nothing is read from no bytes. -/
structure Codec (α : Type) where
  encode : α → Bytes
  decode : Bytes → Option (α × Bytes)
  decode_encode : ∀ a rest, decode (encode a ++ rest) = some (a, rest)
  decode_nil : decode [] = none

namespace Codec

variable {α β : Type}

/-! ## Numbers -/

def u64 : Codec UInt64 where
  encode n := varint n.toNat
  decode bs := (readVarint bs).map fun r => (UInt64.ofNat r.1, r.2)
  decode_encode n rest := by
    rw [readVarint_varint n.toNat_lt, Option.map_some, UInt64.ofNat_toNat]
  decode_nil := rfl

/-- The eight byte form is refused. -/
def u32 : Codec UInt32 where
  encode n := varint n.toNat
  decode bs :=
    if bs.head? = some 253 then none
    else (readVarint bs).map fun r => (UInt32.ofNat r.1, r.2)
  decode_encode n rest := by
    have hlt : n.toNat < 2 ^ 32 := n.toNat_lt
    rw [if_neg (head?_varint_ne hlt rest), readVarint_varint (by omega), Option.map_some,
      UInt32.ofNat_toNat]
  decode_nil := rfl

/-- Small numbers of both signs are small: `0, -1, 1, -2, …`. -/
def zigzag (n : Int) : Nat := if 0 ≤ n then 2 * n.toNat else 2 * (-n).toNat - 1

def unzigzag (n : Nat) : Int := if n % 2 = 0 then n / 2 else -(n / 2) - 1

theorem unzigzag_zigzag (n : Int) : unzigzag (zigzag n) = n := by
  unfold zigzag unzigzag
  split <;> split <;> omega

def i32 : Codec Int32 where
  encode n := u32.encode (UInt32.ofNat (zigzag n.toInt))
  decode bs := (u32.decode bs).map fun r => (Int32.ofInt (unzigzag r.1.toNat), r.2)
  decode_encode n rest := by
    have hlt : zigzag n.toInt < 2 ^ 32 := by
      have h₁ := n.toInt_lt
      have h₂ := n.le_toInt
      unfold zigzag
      split <;> omega
    rw [u32.decode_encode, Option.map_some, UInt32.toNat_ofNat', Nat.mod_eq_of_lt hlt,
      unzigzag_zigzag, Int32.ofInt_toInt]
  decode_nil := rfl

/-- The bits of a float, in four little-endian bytes. -/
def f32 : Codec UInt32 where
  encode bits := leBytes 4 bits.toNat
  decode bs := (readLe 4 bs).map fun r => (UInt32.ofNat r.1, r.2)
  decode_encode bits rest := by
    rw [readLe_leBytes bits.toNat_lt, Option.map_some, UInt32.ofNat_toNat]
  decode_nil := rfl

def bool : Codec Bool where
  encode b := [if b then 1 else 0]
  decode
    | 0 :: rest => some (false, rest)
    | 1 :: rest => some (true, rest)
    | _ => none
  decode_encode b rest := by cases b <;> rfl
  decode_nil := rfl

/-! ## Sequences -/

/-- `[u8; n]`. -/
def byteArray (n : Nat) (hn : 0 < n) : Codec { bs : Bytes // bs.length = n } where
  encode bs := bs.1
  decode bs :=
    if h : (bs.take n).length = n then some (⟨bs.take n, h⟩, bs.drop n) else none
  decode_encode bs rest := by
    have htake : (bs.1 ++ rest).take n = bs.1 := List.take_left' bs.2
    rw [dif_pos (by rw [htake]; exact bs.2), List.drop_left' bs.2]
    simp only [htake]
  decode_nil := by
    rw [dif_neg]
    simp only [List.take_nil, List.length_nil]
    omega

def equiv (c : Codec α) (e : α ≃ β) : Codec β where
  encode b := c.encode (e.symm b)
  decode bs := (c.decode bs).map fun r => (e r.1, r.2)
  decode_encode b rest := by
    rw [c.decode_encode, Option.map_some, e.apply_symm_apply]
  decode_nil := by rw [c.decode_nil, Option.map_none]

def pair (c : Codec α) (d : Codec β) : Codec (α × β) where
  encode p := c.encode p.1 ++ d.encode p.2
  decode bs := (c.decode bs).bind fun r => (d.decode r.2).map fun r' => ((r.1, r'.1), r'.2)
  decode_encode p rest := by
    rw [List.append_assoc, c.decode_encode, Option.bind_some, d.decode_encode, Option.map_some]
  decode_nil := by rw [c.decode_nil, Option.bind_none]

def option (c : Codec α) : Codec (Option α) where
  encode
    | none => [0]
    | some a => 1 :: c.encode a
  decode
    | 0 :: rest => some (none, rest)
    | 1 :: rest => (c.decode rest).map fun r => (some r.1, r.2)
    | _ => none
  decode_encode a rest := by
    cases a with
    | none => rfl
    | some a =>
      show (c.decode (c.encode a ++ rest)).map _ = _
      rw [c.decode_encode, Option.map_some]
  decode_nil := rfl

/-- So many values. -/
def decodeMany (c : Codec α) : Nat → Bytes → Option (List α × Bytes)
  | 0, bs => some ([], bs)
  | n + 1, bs =>
    (c.decode bs).bind fun r => (decodeMany c n r.2).map fun r' => (r.1 :: r'.1, r'.2)

theorem decodeMany_encode (c : Codec α) : ∀ (l : List α) (rest : Bytes),
    c.decodeMany l.length (l.flatMap c.encode ++ rest) = some (l, rest)
  | [], _ => rfl
  | a :: l, rest => by
    rw [List.flatMap_cons, List.append_assoc, List.length_cons, decodeMany, c.decode_encode,
      Option.bind_some, decodeMany_encode c l rest, Option.map_some]

end Codec

/-- A vector: its length is a machine word. -/
abbrev Vec (α : Type) := { l : List α // l.length < 2 ^ 64 }

/-- A string: its length in bytes is a machine word. -/
abbrev Text := { s : String // s.toUTF8.size < 2 ^ 64 }

namespace Codec

variable {α : Type}

def vec (c : Codec α) : Codec (Vec α) where
  encode l := varint l.1.length ++ l.1.flatMap c.encode
  decode bs :=
    (readVarint bs).bind fun r =>
      (c.decodeMany r.1 r.2).bind fun r' =>
        if h : r'.1.length < 2 ^ 64 then some (⟨r'.1, h⟩, r'.2) else none
  decode_encode l rest := by
    rw [List.append_assoc, readVarint_varint l.2, Option.bind_some, c.decodeMany_encode,
      Option.bind_some, dif_pos l.2]
  decode_nil := rfl

/-- The bytes of a string are checked to be UTF-8. -/
def text : Codec Text where
  encode s := varint s.1.toUTF8.size ++ s.1.toUTF8.data.toList
  decode bs :=
    (readVarint bs).bind fun r =>
      if r.1 ≤ r.2.length then
        (String.fromUTF8? ⟨(r.2.take r.1).toArray⟩).bind fun s =>
          if h : s.toUTF8.size < 2 ^ 64 then some (⟨s, h⟩, r.2.drop r.1) else none
      else none
  decode_encode s rest := by
    have hlen : s.1.toUTF8.data.toList.length = s.1.toUTF8.size := Array.length_toList
    have hutf8 : String.fromUTF8? s.1.toUTF8 = some s.1 := by
      unfold String.fromUTF8?
      exact dif_pos s.1.isValidUTF8
    rw [List.append_assoc, readVarint_varint s.2, Option.bind_some,
      if_pos (by rw [List.length_append]; omega), List.take_left' hlen, List.drop_left' hlen]
    show (String.fromUTF8? s.1.toUTF8).bind _ = _
    rw [hutf8, Option.bind_some, dif_pos s.2]
  decode_nil := rfl

end Codec

/-! ## Records -/

/-- The fields that are still to be handed out, and the bytes they are read from. -/
structure SeqAccess where
  remaining : Nat
  input : Bytes

/-- A reader of a record; `none` is an error. -/
abbrev Visit := StateT SeqAccess Option

section Fields

variable {α β : Type}

/-- The next field, unless there are no more. -/
def nextElement (c : Codec α) : Visit (Option α) := fun access =>
  match access.remaining with
  | 0 => some (none, access)
  | n + 1 => (c.decode access.input).map fun r => (some r.1, ⟨n, r.2⟩)

/-- A field that has to be there. -/
def field (c : Codec α) : Visit α := do
  match ← nextElement c with
  | some a => pure a
  | none => failure

/-- A field with a default. -/
def fieldOr (c : Codec α) (default : α) : Visit α := do
  match ← nextElement c with
  | some a => pure a
  | none => pure default

variable (c : Codec α) (a default : α) (n : Nat) (rest : Bytes) (f : α → Visit β)

theorem visit_pure (access : SeqAccess) : (pure a : Visit α) access = some (a, access) := rfl

theorem visit_bind (x : Visit α) (access : SeqAccess) :
    (x >>= f) access = (x access).bind fun r => f r.1 r.2 := rfl

/-- A field that is there is read, and the reader goes on behind it. -/
theorem field_bind : (field c >>= f) ⟨n + 1, c.encode a ++ rest⟩ = f a ⟨n, rest⟩ := by
  unfold field
  rw [visit_bind, visit_bind, nextElement, c.decode_encode]
  rfl

theorem fieldOr_bind :
    (fieldOr c default >>= f) ⟨n + 1, c.encode a ++ rest⟩ = f a ⟨n, rest⟩ := by
  unfold fieldOr
  rw [visit_bind, visit_bind, nextElement, c.decode_encode]
  rfl

/-- The end of the bytes is not the end of the fields. -/
theorem fieldOr_bind_nil : (fieldOr c default >>= f) ⟨n + 1, []⟩ = none := by
  unfold fieldOr
  rw [visit_bind, visit_bind, nextElement, c.decode_nil]
  rfl

/-- A default is taken when no field is left. -/
theorem fieldOr_bind_done : (fieldOr c default >>= f) ⟨0, rest⟩ = f default ⟨0, rest⟩ := rfl

end Fields

/-- A record, and an older form of it that ends before the first field with a default. -/
structure Record (α : Type) where
  visit : Visit α
  encodeFields : α → List Bytes
  fields : Nat
  oldFields : Nat
  /-- The value with the fields that are not in the older form at their defaults. -/
  withDefaults : α → α

namespace Record

variable {α : Type} (R : Record α)

def encode (a : α) : Bytes := (R.encodeFields a).flatten

def encodeOld (a : α) : Bytes := ((R.encodeFields a).take R.oldFields).flatten

/-- The access hands out all fields, and what follows the record is ignored. -/
def decode (bs : Bytes) : Option α := (R.visit ⟨R.fields, bs⟩).map Prod.fst

/-- A record reads back, and the older form only with an access that knows how short it is. -/
structure Positional : Prop where
  length_encodeFields : ∀ a, (R.encodeFields a).length = R.fields
  visit_encode : ∀ a, R.visit ⟨R.fields, R.encode a⟩ = some (a, ⟨0, []⟩)
  visit_encodeOld : ∀ a, R.visit ⟨R.oldFields, R.encodeOld a⟩ = some (R.withDefaults a, ⟨0, []⟩)
  visit_fields_encodeOld : ∀ a, R.visit ⟨R.fields, R.encodeOld a⟩ = none

variable {R}

theorem Positional.decode_encode (h : R.Positional) (a : α) : R.decode (R.encode a) = some a := by
  unfold decode
  rw [h.visit_encode, Option.map_some]

theorem Positional.decode_encodeOld (h : R.Positional) (a : α) :
    R.decode (R.encodeOld a) = none := by
  unfold decode
  rw [h.visit_fields_encodeOld, Option.map_none]

end Record

end Infra
