import FilterSql.Proofs.Sql.Outline
import FilterSql.Proofs.Sql.Precedence

/-!
# Reading tests

The tokens of a test are read as its reading (`Test.reads_reading`).  Most tests are one
conjunction, with or without an AND inside; only the test for an empty column and a list of two or
more excluded texts are disjunctions (`Test.IsAlternation`).
-/

namespace FilterSql

/-- The column differs from each of the texts, as OR joins it. -/
def Disjunction.differs (column : Operand) : String → List String → Disjunction
  | text, [] => .one (.one (.compare column .notEqual (.literal text)))
  | text, next :: texts =>
    .or (.one (.compare column .notEqual (.literal text))) (differs column next texts)

namespace Test

/-- What the text of a test says of the column. -/
def reading (column : Operand) : Test → Disjunction
  | .compare comparison text => .one (.one (.compare column comparison (.literal text)))
  | .oneOf texts => .one (.one (.oneOf column (texts.map .literal)))
  | .notOneOf texts => .differs column (texts.headD "") texts.tail
  | .like pattern => .one (.one (.like column (.literal pattern)))
  | .notLike pattern => .one (.one (.notLike column (.literal pattern)))
  | .isEmpty => .or (.one (.compare column .equal (.literal ""))) (.one (.one (.isNull column)))
  | .isNotEmpty =>
    .one (.and (.compare column .notEqual (.literal "")) (.one (.isNotNull column)))
  | .isNull => .one (.one (.isNull column))
  | .isNotNull => .one (.one (.isNotNull column))
  | .between low high =>
    .one (.and (.compare column .greater (.literal low))
      (.one (.compare column .less (.literal high))))
  | .notBetween low high =>
    .one (.and (.compare column .less (.literal low))
      (.one (.compare column .greater (.literal high))))

/-- The text has double bars. -/
def HasBars : Test → Prop
  | .notOneOf texts => 2 ≤ texts.length
  | _ => False

/-- The text is a disjunction without parentheses around it. -/
def IsAlternation : Test → Prop
  | .isEmpty => True
  | t => t.HasBars

theorem exists_reading_eq_one {column : Operand} {t : Test} (h : ¬ t.IsAlternation) :
    ∃ p, t.reading column = .one p := by
  cases t with
  | isEmpty => exact absurd trivial h
  | notOneOf texts =>
    rcases texts with _ | ⟨text, _ | ⟨next, texts⟩⟩
    · exact ⟨_, rfl⟩
    · exact ⟨_, rfl⟩
    · exact absurd (show 2 ≤ (text :: next :: texts).length by simp) h
  | _ => exact ⟨_, rfl⟩

end Test

theorem Comparison.ofSign?_sign (c : Comparison) : Comparison.ofSign? c.sign = some c := by
  cases c <;> rfl

/-! ### Operands -/

/-- The literals of the texts with commas between them. -/
def Token.ofTexts (texts : List String) : List Token :=
  [Token.comma].intercalate (texts.map fun text => [.literal text])

namespace Token

theorem ofTexts_cons_cons (text next : String) (texts : List String) :
    ofTexts (text :: next :: texts) = literal text :: comma :: ofTexts (next :: texts) := by
  rw [ofTexts, List.map_cons, List.map_cons, List.intercalate_cons_cons]
  rfl

theorem length_le_length_ofTexts (texts : List String) :
    texts.length ≤ (ofTexts texts).length := by
  rcases texts with _ | ⟨text, texts⟩
  · exact Nat.zero_le _
  · induction texts generalizing text with
    | nil => exact Nat.le_refl 1
    | cons next texts ih =>
      have hnext := ih next
      rw [ofTexts_cons_cons]
      simp only [List.length_cons] at hnext ⊢
      omega

end Token

namespace Condition

variable {d : Dialect} {rest : List Token}

theorem readColumn_ofName (name : String) (hr : rest.head? ≠ some .point) :
    readColumn (Token.ofName name ++ rest) = some (Text.pieces '.' name, rest) := by
  have hparts : ∀ part parts,
      readColumn ([Token.point].intercalate ((part :: parts).map fun p => [Token.name p]) ++ rest)
        = some (part :: parts, rest) := by
    intro part parts
    induction parts generalizing part with
    | nil =>
      show readColumn (.name part :: rest) = some ([part], rest)
      rcases rest with _ | ⟨t, rest⟩
      · rfl
      · cases t <;> first | rfl | exact absurd rfl hr
    | cons next parts ih =>
      have hnext := ih next
      rw [List.map_cons, List.map_cons, List.intercalate_cons_cons]
      rw [List.map_cons] at hnext
      simp only [List.cons_append, List.nil_append, readColumn, hnext, Option.map_some]
  obtain ⟨part, parts, hp⟩ := List.exists_cons_of_ne_nil (Text.pieces_ne_nil '.' name)
  rw [Token.ofName, hp]
  exact hparts part parts

theorem readOperand_of_readTerm {ts : List Token} {x : Operand} {fuel : Nat}
    (h : readTerm ts = some (x, rest)) (hr : EndsOperand d rest) (hf : 0 < fuel) :
    readOperand d fuel ts = some (x, rest) := by
  obtain ⟨fuel, rfl⟩ := Nat.exists_eq_add_one.2 hf
  rw [readOperand, h]
  simp only [Option.bind_eq_bind, Option.bind_some]
  split
  · rename_i behind
    rw [if_neg fun hd => hr hd rfl]
    rfl
  · rfl

theorem readOperand_literal {text : String} {fuel : Nat} (hr : EndsOperand d rest)
    (hf : 0 < fuel) : readOperand d fuel (.literal text :: rest) = some (.literal text, rest) :=
  readOperand_of_readTerm rfl hr hf

theorem readOperand_ofName (name : String) {fuel : Nat} (hp : rest.head? ≠ some .point)
    (hr : EndsOperand d rest) (hf : 0 < fuel) :
    readOperand d fuel (Token.ofName name ++ rest)
      = some (.column (Text.pieces '.' name), rest) := by
  refine readOperand_of_readTerm ?_ hr hf
  have hcolumn := readColumn_ofName name hp
  obtain ⟨part, ts, hn⟩ := Token.exists_ofName_eq_cons name
  rw [hn] at hcolumn ⊢
  rw [List.cons_append] at hcolumn ⊢
  simp [readTerm, hcolumn]

theorem readMembers_literal_closing {fuel : Nat} {text : String} (hf : 0 < fuel) :
    readMembers d (fuel + 1) (.literal text :: .closing :: rest) = some ([.literal text], rest) := by
  rw [readMembers, readOperand_literal (by simp [EndsOperand]) hf]
  rfl

theorem readMembers_literal_comma {fuel : Nat} {text : String} (hf : 0 < fuel) :
    readMembers d (fuel + 1) (.literal text :: .comma :: rest)
      = (readMembers d fuel rest).map fun r => (.literal text :: r.1, r.2) := by
  rw [readMembers, readOperand_literal (by simp [EndsOperand]) hf]
  cases h : readMembers d fuel rest <;> simp [h]

theorem readMembers_ofTexts {fuel : Nat} {texts : List String} (hne : texts ≠ [])
    (hf : texts.length < fuel) :
    readMembers d fuel (Token.ofTexts texts ++ .closing :: rest)
      = some (texts.map .literal, rest) := by
  obtain ⟨text, texts, rfl⟩ := List.exists_cons_of_ne_nil hne
  rw [List.length_cons] at hf
  induction texts generalizing text fuel with
  | nil =>
    obtain ⟨fuel, rfl⟩ := Nat.exists_eq_add_one.2 (show 0 < fuel by omega)
    exact readMembers_literal_closing (by omega)
  | cons next texts ih =>
    rw [List.length_cons] at hf
    obtain ⟨fuel, rfl⟩ := Nat.exists_eq_add_one.2 (show 0 < fuel by omega)
    rw [Token.ofTexts_cons_cons, List.cons_append, List.cons_append,
      readMembers_literal_comma (by omega), ih next (by simp) (by omega)]
    rfl

theorem readPrimary_ofName {name : String} {fuel : Nat} (hp : rest.head? ≠ some .point)
    (hr : EndsOperand d rest) (hf : 0 < fuel) :
    readPrimary d (fuel + 1) (Token.ofName name ++ rest)
      = readRelation d fuel (.column (Text.pieces '.' name)) rest := by
  have hoperand := readOperand_ofName name hp hr hf
  obtain ⟨part, ts, hn⟩ := Token.exists_ofName_eq_cons name
  rw [hn, List.cons_append] at hoperand ⊢
  simp [readPrimary, hoperand]

/-! ### Relations -/

/-- What follows the column tells what is said of it. -/
theorem Reads.ofName {name : String} {t : Token} {ts : List Token} {c : Condition}
    (hp : t ≠ .point) (hb : t ≠ .bars)
    (h : ∀ rest fuel, EndsOperand d rest → 3 * ts.length + 2 ≤ fuel →
      readRelation d fuel (.column (Text.pieces '.' name)) (t :: ts ++ rest) = some (c, rest)) :
    c.Reads d (Token.ofName name ++ t :: ts) := by
  intro rest fuel hr hf
  obtain ⟨part, ps, hn⟩ := Token.exists_ofName_eq_cons name
  have hlength : 0 < (Token.ofName name).length := by simp [hn]
  rw [List.length_append, List.length_cons] at hf
  obtain ⟨fuel, rfl⟩ := Nat.exists_eq_add_one.2 (show 0 < fuel by omega)
  rw [List.append_assoc, readPrimary_ofName (by simpa using hp) (by simp [EndsOperand, hb])
    (by omega)]
  exact h rest fuel hr (by omega)

theorem reads_compare (name text : String) {sign : String} {comparison : Comparison}
    (hs : Comparison.ofSign? sign = some comparison) :
    (compare (.column (Text.pieces '.' name)) comparison (.literal text)).Reads d
      (Token.ofName name ++ [.sign sign, .literal text]) := by
  refine Reads.ofName (by simp) (by simp) fun rest fuel hr hf => ?_
  simp [readRelation, hs, readOperand_literal hr (show 0 < fuel by omega)]

theorem reads_like (name pattern : String) :
    (like (.column (Text.pieces '.' name)) (.literal pattern)).Reads d
      (Token.ofName name ++ [.word "LIKE", .literal pattern]) := by
  refine Reads.ofName (by simp) (by simp) fun rest fuel hr hf => ?_
  simp [readRelation, readOperand_literal hr (show 0 < fuel by omega)]

theorem reads_notLike (name pattern : String) :
    (notLike (.column (Text.pieces '.' name)) (.literal pattern)).Reads d
      (Token.ofName name ++ [.word "NOT", .word "LIKE", .literal pattern]) := by
  refine Reads.ofName (by simp) (by simp) fun rest fuel hr hf => ?_
  simp [readRelation, readOperand_literal hr (show 0 < fuel by omega)]

theorem reads_isNull (name : String) :
    (isNull (.column (Text.pieces '.' name))).Reads d
      (Token.ofName name ++ [.word "IS", .word "NULL"]) :=
  Reads.ofName (by simp) (by simp) fun _ _ _ _ => rfl

theorem reads_isNotNull (name : String) :
    (isNotNull (.column (Text.pieces '.' name))).Reads d
      (Token.ofName name ++ [.word "IS", .word "NOT", .word "NULL"]) :=
  Reads.ofName (by simp) (by simp) fun _ _ _ _ => rfl

theorem reads_oneOf (name : String) {texts : List String} (hne : texts ≠ []) :
    (oneOf (.column (Text.pieces '.' name)) (texts.map .literal)).Reads d
      (Token.ofName name ++ .word "IN" :: .opening :: Token.ofTexts texts ++ [.closing]) := by
  rw [List.append_assoc, List.cons_append]
  refine Reads.ofName (by simp) (by simp) fun rest fuel _ hf => ?_
  have hlength := Token.length_le_length_ofTexts texts
  simp only [List.cons_append, List.length_cons, List.length_append, List.length_nil] at hf
  have hmembers := @readMembers_ofTexts d rest fuel texts hne (by omega)
  simp [readRelation, hmembers]

end Condition

/-! ### Tests -/

open Condition

variable {d : Dialect}

theorem Disjunction.reads_differs (name : String) {text : String} {texts : List String}
    (hd : texts ≠ [] → d.barsJoinTexts = false) :
    (differs (.column (Text.pieces '.' name)) text texts).Reads d
      ([Token.bars].intercalate ((text :: texts).map fun text =>
        Token.ofName name ++ [.sign "!=", .literal text])) := by
  have hsign : Comparison.ofSign? "!=" = some .notEqual := rfl
  induction texts generalizing text with
  | nil =>
    rw [List.map_singleton, List.intercalate_singleton]
    exact .one (.one (reads_compare name text hsign))
  | cons next texts ih =>
    have hbars := hd (List.cons_ne_nil _ _)
    have hrest := @ih next fun _ => hbars
    rw [List.map_cons] at hrest
    rw [List.map_cons, List.map_cons, List.intercalate_cons_cons, List.append_assoc]
    exact .or (.one (reads_compare name text hsign)) (.inr ⟨rfl, hbars⟩) hrest

/-- A test is read as its reading, double bars being an OR in its text. -/
theorem Test.reads_reading (name : String) {t : Test} (ht : t.IsProper)
    (hd : t.HasBars → d.barsJoinTexts = false) :
    (t.reading (.column (Text.pieces '.' name))).Reads d (t.tokens (Token.ofName name)) := by
  cases t with
  | compare comparison text => exact .one (.one (reads_compare name text comparison.ofSign?_sign))
  | oneOf texts => exact .one (.one (reads_oneOf name ht))
  | notOneOf texts =>
    obtain ⟨text, texts, rfl⟩ := List.exists_cons_of_ne_nil ht
    refine Disjunction.reads_differs name fun hne => hd ?_
    have hlength := List.length_pos_of_ne_nil hne
    show 2 ≤ texts.length + 1
    omega
  | like pattern => exact .one (.one (reads_like name pattern))
  | notLike pattern => exact .one (.one (reads_notLike name pattern))
  | isEmpty =>
    have h := (reads_compare (d := d) name "" Comparison.equal.ofSign?_sign).eitherEnclosed
      (reads_isNull name)
    simpa [Test.tokens, reading, Comparison.sign] using h
  | isNotEmpty =>
    have h := (reads_compare (d := d) name "" Comparison.notEqual.ofSign?_sign).bothEnclosed
      (reads_isNotNull name)
    simpa [Test.tokens, reading, Comparison.sign] using h
  | isNull => exact .one (.one (reads_isNull name))
  | isNotNull => exact .one (.one (reads_isNotNull name))
  | between low high =>
    have h := (reads_compare (d := d) name low Comparison.greater.ofSign?_sign).bothEnclosed
      (reads_compare name high Comparison.less.ofSign?_sign)
    simpa [Test.tokens, reading, Comparison.sign] using h
  | notBetween low high =>
    have h := (reads_compare (d := d) name low Comparison.less.ofSign?_sign).bothEnclosed
      (reads_compare name high Comparison.greater.ofSign?_sign)
    simpa [Test.tokens, reading, Comparison.sign] using h

end FilterSql
