import ChainGateway.Wire.OnWire
import Mathlib.Data.List.Forall2

namespace ChainGateway

theorem SignedWord.ofInt?_eq_some_iff {n : Int} {w : SignedWord} :
    ofInt? n = some w ↔ n = w.toInt := by
  constructor
  · intro h
    unfold ofInt? at h
    split at h
    · rw [← Option.some.inj h]
    · cases h
  · rintro rfl
    exact ofInt?_toInt w

theorem Json.isNull_iff {v : Json} : v.isNull = true ↔ v = .null := by
  cases v <;> simp [isNull]

namespace Wire

open Json (Cause mismatch)

theorem mapM_eq_ok_iff {α β : Type} {f : α → Except Cause β} {as : List α} {bs : List β} :
    as.mapM f = .ok bs ↔ List.Forall₂ (fun a b => f a = .ok b) as bs := by
  induction as generalizing bs with
  | nil => simp [pure, Except.pure, eq_comm]
  | cons a as ih =>
    rw [List.mapM_cons, List.forall₂_cons_left_iff]
    simp only [← ih]
    cases f a with
    | error cause => exact iff_of_false nofun fun ⟨_, _, h, _⟩ => nomatch h
    | ok b =>
      cases as.mapM f with
      | error cause => exact iff_of_false nofun fun ⟨_, _, _, h, _⟩ => nomatch h
      | ok bs' => simp [bind, Except.bind, pure, Except.pure, eq_comm]

theorem ofJson_text (v : Json) :
    Shape.text.ofJson v = match v with
      | .string t => .ok t
      | v => mismatch v Shape.text.wanted := by
  cases v <;> rfl

theorem ofJson_boolean (v : Json) :
    Shape.boolean.ofJson v = match v with
      | .bool b => .ok b
      | v => mismatch v Shape.boolean.wanted := by
  cases v <;> rfl

theorem ofJson_unsigned (bits : Nat) (v : Json) :
    (Shape.unsigned bits).ofJson v = unsignedOfJson bits v := rfl

theorem ofJson_signed (v : Json) : Shape.signed.ofJson v = signedOfJson v := rfl

theorem ofJson_nullable_of_ne_null {item : Shape} {v : Json} (h : v ≠ .null) :
    (Shape.nullable item).ofJson v = (item.ofJson v).map some := by
  cases v with
  | null => exact absurd rfl h
  | _ => rfl

theorem toJson_list_value (vs : List Json) : (Shape.list .value).toJson vs = .array vs := by
  have hvalue : Shape.toJson .value = id := by
    funext v
    rw [Shape.toJson]
    rfl
  change Json.array (vs.map (Shape.toJson .value)) = _
  rw [hvalue]
  exact congrArg Json.array (List.map_id vs)

theorem orElse_eq_ok_iff {α : Type} {x : Option α} {cause : Cause} {a : α} :
    orElse x cause = .ok a ↔ x = some a := by
  cases x <;> simp [orElse]

theorem mismatch_ne_ok {α : Type} (v : Json) (wanted : String) (a : α) :
    mismatch v wanted ≠ .ok a := nofun

theorem ofJson_text_eq_ok_iff {v : Json} {t : String} :
    Shape.text.ofJson v = .ok t ↔ v = .string t := by
  rw [ofJson_text]
  constructor
  · intro h
    split at h
    · rw [Except.ok.inj h]
    · exact absurd h (mismatch_ne_ok _ _ _)
  · rintro rfl
    rfl

theorem ofJson_boolean_eq_ok_iff {v : Json} {b : Bool} :
    Shape.boolean.ofJson v = .ok b ↔ v = .bool b := by
  rw [ofJson_boolean]
  constructor
  · intro h
    split at h
    · rw [Except.ok.inj h]
    · exact absurd h (mismatch_ne_ok _ _ _)
  · rintro rfl
    rfl

theorem ofJson_signed_eq_ok_iff {v : Json} {n : SignedWord} :
    Shape.signed.ofJson v = .ok n ↔ v = .integer n.toInt := by
  rw [ofJson_signed]
  constructor
  · intro h
    unfold signedOfJson at h
    split at h
    · rw [SignedWord.ofInt?_eq_some_iff.mp (orElse_eq_ok_iff.mp h)]
    · exact absurd h (mismatch_ne_ok _ _ _)
  · rintro rfl
    exact orElse_eq_ok_iff.mpr (SignedWord.ofInt?_toInt n)

theorem ofJson_unsigned_eq_ok_iff {bits : Nat} {v : Json} {n : Word bits} :
    (Shape.unsigned bits).ofJson v = .ok n ↔ v = .integer n.toNat := by
  rw [ofJson_unsigned]
  constructor
  · intro h
    unfold unsignedOfJson at h
    split at h
    · rename_i k
      by_cases hk : k < 0
      · rw [if_pos hk] at h
        cases h
      · rw [if_neg hk] at h
        have hn := Word.ofNat?_eq_some_iff.mp (orElse_eq_ok_iff.mp h)
        rw [hn, Int.toNat_of_nonneg (Int.not_lt.mp hk)]
    · exact absurd h (mismatch_ne_ok _ _ _)
  · rintro rfl
    have hn : ¬ (n.toNat : Int) < 0 := Int.not_lt.mpr (Int.natCast_nonneg _)
    simp only [unsignedOfJson, hn, ↓reduceIte, Int.toNat_natCast, Word.ofNat?_toNat]
    rfl

end Wire

namespace OnWire

variable {α : Type} [OnWire α] (hpack : ∀ a : α, unpack (pack a) = a)
  (hunpack : ∀ x : (shape α).Carrier, pack (unpack x : α) = x)

include hpack hunpack

theorem unpack_eq_iff {x : (shape α).Carrier} {a : α} : unpack x = a ↔ x = pack a :=
  ⟨fun h => h ▸ (hunpack x).symm, fun h => h ▸ hpack a⟩

theorem ofJson_eq_ok_iff {v : Json} {a : α} :
    ofJson v = .ok a ↔ (shape α).ofJson v = .ok (pack a) := by
  unfold ofJson
  cases (shape α).ofJson v with
  | error cause => exact iff_of_false nofun nofun
  | ok x =>
    rw [Except.ok.injEq, Except.ok.injEq]
    exact unpack_eq_iff hpack hunpack

theorem ofBytes_eq_ok_iff {text : List UInt8} {a : α} :
    ofBytes text = .ok a ↔ (shape α).ofBytes text = .ok (pack a) := by
  unfold ofBytes
  cases (shape α).ofBytes text with
  | error fault => exact iff_of_false nofun nofun
  | ok x =>
    rw [Except.map, Except.ok.injEq, Except.ok.injEq]
    exact unpack_eq_iff hpack hunpack

end OnWire

end ChainGateway
