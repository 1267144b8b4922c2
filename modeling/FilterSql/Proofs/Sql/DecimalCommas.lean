import Mathlib.Data.String.Basic
import FilterSql.Proofs.Sql.Numbers

/-!
# Decimal commas

Under the type `double` a text is compared with its decimal commas written as points, and nothing else
of it changes (`Text.PointsForCommas`).  Plain texts of numbers and truth values have no comma to begin
with (`Scalar.comma_not_mem_plain`).  So a literal text has no comma left that could move, and it is its
own literal text (`Scalar.literalText_literalText`).
-/

namespace FilterSql

/-! ### Points for commas -/

/-- The second text is the first with a point in the place of each comma. -/
structure Text.PointsForCommas (s t : String) : Prop where
  length : t.length = s.length
  utf8ByteSize : t.utf8ByteSize = s.utf8ByteSize
  /-- The texts differ where the first has a comma and nowhere else. -/
  differ_iff : ∀ i : Nat, t.toList[i]? ≠ s.toList[i]? ↔ s.toList[i]? = some ','
  point : ∀ i : Nat, s.toList[i]? = some ',' → t.toList[i]? = some '.'

theorem Text.utf8ByteSize_exchange {old new : Char} (h : new.utf8Size = old.utf8Size) (s : String) :
    (exchange old new s).utf8ByteSize = s.utf8ByteSize := by
  have hchars : ∀ cs : List Char,
      String.utf8Len (cs.map fun c => if c = old then new else c) = String.utf8Len cs := by
    intro cs
    induction cs with
    | nil => rfl
    | cons c cs ih =>
      have hc : (if c = old then new else c).utf8Size = c.utf8Size := by
        split
        · next hold => rw [h, hold]
        · rfl
      rw [List.map_cons, String.utf8Len_cons, String.utf8Len_cons, ih, hc]
  have hs : s.utf8ByteSize = String.utf8Len s.toList := by
    rw [← String.utf8ByteSize_ofList, String.ofList_toList]
  rw [exchange, String.utf8ByteSize_ofList, hchars, hs]

theorem Text.pointsForCommas_exchange (s : String) : PointsForCommas s (exchange ',' '.' s) where
  length := length_exchange _ _ s
  utf8ByteSize := utf8ByteSize_exchange (by decide) s
  differ_iff i := by
    rw [getElem?_exchange]
    cases s.toList[i]? with
    | none => simp
    | some c => by_cases hc : c = ',' <;> simp [hc]
  point i hi := by rw [getElem?_exchange, hi]; rfl

/-! ### Plain texts -/

theorem Binary64.plain_of_not_isFinite {x : Binary64} (h : x.isFinite = false) :
    x.plain = "NaN" ∨ x.plain = x.signText ++ "inf" := by
  rw [plain, h]
  cases x.isNaN
  · exact .inr rfl
  · exact .inl rfl

theorem Binary64.comma_not_mem_plain (x : Binary64) : ',' ∉ x.plain.toList := by
  cases h : x.isFinite with
  | true => exact (isDecimal_plain h).not_mem rfl (by decide) (by decide)
  | false =>
    rcases plain_of_not_isFinite h with hx | hx
    · rw [hx]; decide
    · rw [hx, String.toList_append, signText]
      cases x.isNegative <;> decide

namespace Scalar

/-- Only a text can hold a comma. -/
theorem comma_not_mem_plain {x : Scalar} (h : ∀ s, x ≠ .text s) : ',' ∉ x.plain.toList := by
  cases x with
  | integer n => exact (Text.isDecimal_repr n.toInt).not_mem rfl (by decide) (by decide)
  | float x => exact x.comma_not_mem_plain
  | text s => exact absurd rfl (h s)
  | boolean b => cases b <;> decide

/-- Nothing but a text of the type `double` is changed. -/
theorem literalText_eq_plain_of_or {x : Scalar} {type : FieldType}
    (h : type ≠ .double ∨ ∀ s, x ≠ .text s) : x.literalText type = x.plain :=
  h.elim (fun htype => literalText_eq_plain htype x)
    fun hx => literalText_of_not_mem (comma_not_mem_plain hx) type

theorem literalText_text (s : String) : literalText .double (.text s) = Text.exchange ',' '.' s := by
  simp [literalText]

theorem comma_not_mem_literalText (x : Scalar) : ',' ∉ (x.literalText .double).toList := by
  by_cases hx : ∃ s, x = .text s
  · obtain ⟨s, rfl⟩ := hx
    rw [literalText_text]
    exact Text.not_mem_exchange (by decide) s
  · have hplain : ∀ s, x ≠ .text s := fun s hs => hx ⟨s, hs⟩
    rw [literalText_eq_plain_of_or (.inr hplain)]
    exact comma_not_mem_plain hplain

/-! ### Main result -/

/-- A literal text is its own literal text.  Under the type `double` it has no comma: that of a text has
points for the commas and is the text otherwise.  All other scalars, and all scalars of other types,
have their plain texts. -/
theorem literalText_literalText (x : Scalar) (type : FieldType) :
    literalText type (.text (x.literalText type)) = x.literalText type ∧
      ',' ∉ (x.literalText .double).toList ∧
      (∀ s, Text.PointsForCommas s (literalText .double (.text s))) ∧
      (type ≠ .double ∨ (∀ s, x ≠ .text s) → x.literalText type = x.plain) := by
  refine ⟨?_, x.comma_not_mem_literalText, fun s => ?_, literalText_eq_plain_of_or⟩
  · by_cases htype : type = .double
    · subst htype
      rw [literalText_text]
      exact Text.exchange_eq_self x.comma_not_mem_literalText
    · exact literalText_eq_plain htype _
  · rw [literalText_text]
    exact Text.pointsForCommas_exchange s

/-- Digits behind a decimal comma stay, and so do commas in texts of other types. -/
theorem literalText_literalText_comma :
    literalText .double (.text (literalText .double (.text "42,50"))) = "42.50" ∧
      literalText .string (.text "42,50") = "42,50" := by
  have h := literalText_literalText (.text "42,50")
  exact ⟨(h .double).1.trans (by decide +kernel), (h .string).2.2.2 (.inl (by decide))⟩

end Scalar

end FilterSql
