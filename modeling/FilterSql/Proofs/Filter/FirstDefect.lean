import FilterSql.Proofs.Filter.Defects
import FilterSql.Proofs.Filter.Messages

/-!
# The first defect

A defect with a path tells the truth about the part of the document that its path leads to
(`Error.HoldsOf`).  What stands behind the first defect does not matter: documents with the same marks up
to there have the same error (`Payload.ofJson_error_congr`).  With that, `Filter.ofJson_error` says which
error a document has and what the message says of it.
-/

namespace FilterSql

/-! ### What defects say -/

/-- The error points at a part of the document and says something true of it.  A null has to be an
element of an array. -/
def Error.HoldsOf (j : Json) : Error → Prop
  | .malformed place reason =>
    place.IsKnown ∧ (∃ part, j.at? place = some part ∧ reason.HoldsOf part) ∧
      (reason = .nullInList → ∃ above i xs, place = above ++ [.index i] ∧
        j.at? above = some (.array xs))
  | _ => True

namespace Error

variable {j : Json} {reason : Reason}

theorem holdsOf_nil (h : reason.HoldsOf j) (hn : reason ≠ .nullInList) :
    (malformed [] reason).HoldsOf j :=
  ⟨by simp [Path.IsKnown], ⟨j, rfl, h⟩, fun hr => absurd hr hn⟩

theorem holdsOf_key {name : String} {v : Json} (hv : j.member? name = some v)
    (hk : (Step.key name).IsKnown) (h : reason.HoldsOf v) (hn : reason ≠ .nullInList) :
    (malformed [.key name] reason).HoldsOf j := by
  refine ⟨by simpa [Path.IsKnown] using hk, ⟨v, ?_, h⟩, fun hr => absurd hr hn⟩
  simp [Json.at?, Json.step?, hv]

theorem HoldsOf.within {e : Error} {part : Json} {steps : Path} (h : e.HoldsOf part)
    (hp : j.at? steps = some part) (hs : steps.IsKnown) : (e.within steps).HoldsOf j := by
  cases e with
  | malformed place reason =>
    obtain ⟨hknown, ⟨v, hv, hr⟩, hnull⟩ := h
    refine ⟨List.forall_mem_append.2 ⟨hs, hknown⟩, ⟨v, ?_, hr⟩, fun hn => ?_⟩
    · rw [Json.at?_append, hp]
      exact hv
    · obtain ⟨above, i, xs, rfl, hxs⟩ := hnull hn
      refine ⟨steps ++ above, i, xs, (List.append_assoc _ _ _).symm, ?_⟩
      rw [Json.at?_append, hp]
      exact hxs
  | _ => trivial

end Error

namespace Json

theorem holdsOf_of_mem_scalarDefects {j : Json} (hj : j ≠ .null) :
    ∀ e ∈ j.scalarDefects, e.HoldsOf j := by
  intro e he
  cases j with
  | null => exact absurd rfl hj
  | array xs =>
    obtain rfl := List.mem_singleton.1 he
    exact Error.holdsOf_nil (.inl ⟨xs, rfl⟩) (by simp)
  | object members =>
    obtain rfl := List.mem_singleton.1 he
    exact Error.holdsOf_nil (.inr ⟨members, rfl⟩) (by simp)
  | _ => simp [scalarDefects] at he

theorem holdsOf_of_mem_elementDefects {xs : List Json} :
    ∀ e ∈ elementDefects xs, e.HoldsOf (.array xs) := by
  intro e hmem
  obtain ⟨⟨x, i⟩, hx, hmap⟩ := List.mem_flatMap.1 hmem
  obtain ⟨e, he, rfl⟩ := List.mem_map.1 hmap
  rw [List.mem_zipIdx_iff_getElem?] at hx
  have hat : (array xs).at? [.index i] = some x := by
    simpa [at?, step?] using hx
  have hknown : Path.IsKnown [.index i] := by
    simp [Path.IsKnown, Step.IsKnown]
  by_cases hnull : x = .null
  · subst hnull
    obtain rfl := List.mem_singleton.1 he
    exact ⟨hknown, ⟨.null, hat, rfl⟩, fun _ => ⟨[], i, xs, rfl, rfl⟩⟩
  · exact (holdsOf_of_mem_scalarDefects hnull e he).within hat hknown

end Json

namespace Value

variable {operator : Operator}

theorem holdsOf_of_mem_singleDefects {v : Json} (hv : v ≠ .null) :
    ∀ e ∈ singleDefects operator v, e.HoldsOf v := by
  intro e he
  cases v with
  | array xs =>
    rw [singleDefects] at he
    split at he
    · exact Json.holdsOf_of_mem_elementDefects e he
    · obtain rfl := List.mem_singleton.1 he
      trivial
  | _ => exact Json.holdsOf_of_mem_scalarDefects hv e he

theorem holdsOf_of_mem_listDefects {v : Json} (hv : v ≠ .null) :
    ∀ e ∈ listDefects operator v, e.HoldsOf v := by
  intro e he
  cases v with
  | array xs =>
    rw [listDefects] at he
    split at he
    · obtain rfl := List.mem_singleton.1 he
      trivial
    · exact Json.holdsOf_of_mem_elementDefects e he
  | _ => exact Json.holdsOf_of_mem_scalarDefects hv e he

theorem holdsOf_of_mem_pairDefects {v : Json} : ∀ e ∈ pairDefects operator v, e.HoldsOf v := by
  intro e he
  cases v with
  | array xs =>
    rw [pairDefects] at he
    split at he
    · exact Json.holdsOf_of_mem_elementDefects e he
    · obtain rfl := List.mem_singleton.1 he
      trivial
  | string s =>
    rw [pairDefects] at he
    split at he
    · simp at he
    · obtain rfl := List.mem_singleton.1 he
      trivial
  | _ =>
    obtain rfl := List.mem_singleton.1 he
    trivial

/-- A defect of a value is about its kind as a whole, or holds of a part. -/
theorem holdsOf_of_mem_defects {value : Option Json} {e : Error}
    (he : e ∈ defects operator value) :
    e = .valueArity operator .nothing ∨ ∃ v, value = some v ∧ e.HoldsOf v := by
  unfold defects at he
  split at he
  · simp at he
  · exact .inl (List.mem_singleton.1 he)
  · exact .inl (List.mem_singleton.1 he)
  · rename_i v hv _
    exact .inr ⟨v, rfl, holdsOf_of_mem_singleDefects (by simpa using hv) e he⟩
  · rename_i v hv _
    exact .inr ⟨v, rfl, holdsOf_of_mem_listDefects (by simpa using hv) e he⟩
  · rename_i v _ _
    exact .inr ⟨v, rfl, holdsOf_of_mem_pairDefects e he⟩

end Value

namespace Payload

variable {j : Json}

theorem holdsOf_of_mem_conditionDefects (hr : (j.member? "rules").isSome) :
    ∀ e ∈ conditionDefects j, e.HoldsOf j := by
  intro e he
  have hk : (Step.key "condition").IsKnown := by
    simp [Step.IsKnown]
  unfold conditionDefects at he
  split at he
  · rename_i s hs
    split at he
    · simp at he
    · rename_i hc
      obtain rfl := List.mem_singleton.1 he
      exact Error.holdsOf_key hs hk ⟨rfl, by simpa using hc⟩ (by simp)
  · rename_i v hv hs
    obtain rfl := List.mem_singleton.1 he
    exact Error.holdsOf_key hs hk (fun s h => hv s (h ▸ rfl)) (by simp)
  · rename_i hc
    obtain rfl := List.mem_singleton.1 he
    exact Error.holdsOf_nil ⟨hr, hc⟩ (by simp)

theorem holdsOf_of_mem_rulesDefects (hr : (j.member? "rules").isSome) :
    ∀ e ∈ rulesDefects j, e.HoldsOf j := by
  intro e he
  obtain ⟨v, hv⟩ := Option.isSome_iff_exists.1 hr
  unfold rulesDefects at he
  split at he
  · simp at he
  · rename_i h
    obtain rfl := List.mem_singleton.1 he
    exact Error.holdsOf_key hv (by simp [Step.IsKnown]) (fun xs hx => h xs (hx ▸ hv)) (by simp)

theorem holdsOf_of_mem_operatorDefects (ho : (j.member? "operator").isSome) :
    ∀ e ∈ operatorDefects j, e.HoldsOf j := by
  intro e he
  obtain ⟨v, hv⟩ := Option.isSome_iff_exists.1 ho
  unfold operatorDefects at he
  split at he
  · split at he
    · simp at he
    · obtain rfl := List.mem_singleton.1 he
      trivial
  · rename_i h
    obtain rfl := List.mem_singleton.1 he
    exact Error.holdsOf_key hv (by simp [Step.IsKnown]) (fun s hs => h s (hs ▸ hv)) (by simp)

theorem holdsOf_of_mem_fieldDefects (ho : (j.member? "operator").isSome) :
    ∀ e ∈ fieldDefects j, e.HoldsOf j := by
  intro e he
  unfold fieldDefects at he
  split at he
  · simp at he
  · rename_i h
    obtain rfl := List.mem_singleton.1 he
    exact Error.holdsOf_nil ⟨ho, h⟩ (by simp)

theorem holdsOf_of_mem_typeDefects : ∀ e ∈ typeDefects j, e.HoldsOf j := by
  intro e he
  unfold typeDefects at he
  split at he
  · simp at he
  · simp at he
  · simp at he
  · rename_i v hnull hs hv
    obtain rfl := List.mem_singleton.1 he
    exact Error.holdsOf_key hv (by simp [Step.IsKnown]) ⟨hnull, hs⟩ (by simp)

theorem holdsOf_of_mem_valueDefects : ∀ e ∈ valueDefects j, e.HoldsOf j := by
  intro e hmem
  unfold valueDefects at hmem
  split at hmem
  · obtain ⟨operator, -, hmap⟩ := List.mem_flatMap.1 hmem
    obtain ⟨e, he, rfl⟩ := List.mem_map.1 hmap
    rcases Value.holdsOf_of_mem_defects he with rfl | ⟨v, hv, h⟩
    · trivial
    · exact h.within (by simp [Json.at?, Json.step?, hv]) (by simp [Path.IsKnown, Step.IsKnown])
  · simp at hmem

/-- Each defect of an object tells the truth about the object. -/
theorem holdsOf_of_mem_defects : ∀ e ∈ defects j, e.HoldsOf j := by
  intro e he
  unfold defects at he
  split at he
  · rename_i h
    obtain rfl := List.mem_singleton.1 he
    exact Error.holdsOf_nil h (by simp)
  rename_i hobject
  split at he
  · rename_i hr
    rcases List.mem_append.1 he with he | he
    · exact holdsOf_of_mem_conditionDefects hr e he
    · exact holdsOf_of_mem_rulesDefects hr e he
  rename_i hr
  split at he
  · rename_i ho
    rcases List.mem_append.1 he with he | he
    · rcases List.mem_append.1 he with he | he
      · rcases List.mem_append.1 he with he | he
        · exact holdsOf_of_mem_operatorDefects ho e he
        · exact holdsOf_of_mem_fieldDefects ho e he
      · exact holdsOf_of_mem_typeDefects e he
    · exact holdsOf_of_mem_valueDefects e he
  · rename_i ho
    obtain rfl := List.mem_singleton.1 he
    rw [Bool.not_eq_false] at hobject
    rw [Bool.not_eq_true, Option.isSome_eq_false_iff, Option.isNone_iff_eq_none] at hr ho
    exact Error.holdsOf_nil ⟨hobject, hr, ho⟩ (by simp)

theorem isKnown_of_mem_nodes (j : Json) : ∀ node ∈ nodes j, node.1.IsKnown := by
  induction j using Payload.induction with
  | step j ih =>
    intro node hn
    rw [nodes_eq, List.mem_cons, List.mem_flatMap] at hn
    rcases hn with rfl | ⟨⟨item, i⟩, hi, hn⟩
    · simp [Path.IsKnown]
    · obtain ⟨below, hb, rfl⟩ := List.mem_map.1 hn
      have hitem := List.mem_of_getElem? (List.mem_zipIdx_iff_getElem?.1 hi)
      refine List.forall_mem_append.2 ⟨by simp [Step.IsKnown], ih item hitem below hb⟩

/-- Each defect of a document tells the truth about it. -/
theorem holdsOf_of_mem_allDefects : ∀ e ∈ allDefects j, e.HoldsOf j := by
  intro e hmem
  obtain ⟨node, hn, hmap⟩ := List.mem_flatMap.1 hmem
  obtain ⟨e, he, rfl⟩ := List.mem_map.1 hmap
  exact (holdsOf_of_mem_defects e he).within (at?_of_mem_nodes j node hn)
    (isKnown_of_mem_nodes j node hn)

end Payload

/-! ### Behind the first defect -/

/-- Marks that agree up to a defect have the same first defect. -/
theorem Payload.head?_allDefects {j : Json} {before after : List (Path × List Error)} {place : Path}
    {e : Error} {more : List Error} (h : marks j = before ++ (place, e :: more) :: after) :
    (allDefects j).head? = ((before ++ [(place, [e])]).flatMap fun mark =>
      mark.2.map (Error.within mark.1)).head? := by
  rw [allDefects_eq_flatMap_marks, h]
  simp [List.head?_append]

/-- Documents that have the same marks up to a defect have the same error. -/
theorem Payload.ofJson_error_congr {j k : Json} {before after after' : List (Path × List Error)}
    {place : Path} {e : Error} {more more' : List Error}
    (hj : marks j = before ++ (place, e :: more) :: after)
    (hk : marks k = before ++ (place, e :: more') :: after') (first : Error) :
    Filter.ofJson j = .error first ↔ Filter.ofJson k = .error first := by
  rw [finds_ofJson j first, finds_ofJson k first, head?_allDefects hj, head?_allDefects hk]

/-! ### Main result -/

namespace Filter

/-- The error of a document is the first defect in the order of its nodes.  What is read behind a
defect, in the same object or in later ones, does not change it.  If the error is about a place, its
path leads to a part of the document for which the reason is true, and so is what the text of the
reason says.  The message shows the path and that text, and no other path or reason has it. -/
theorem ofJson_error (j : Json) :
    (∀ e, ofJson j = .error e ↔ (Payload.allDefects j).head? = some e) ∧
    (∀ k before place e more more' after after',
      Payload.marks j = before ++ (place, e :: more) :: after →
      Payload.marks k = before ++ (place, e :: more') :: after' →
      ∀ first, ofJson j = .error first ↔ ofJson k = .error first) ∧
    ∀ place reason, ofJson j = .error (.malformed place reason) →
      Error.HoldsOf j (.malformed place reason) ∧
      (∃ part, j.at? place = some part ∧ Reason.Says part reason.text) ∧
      (Error.malformed place reason).message
        = "malformed filter at " ++ place.text ++ ": " ++ reason.text ∧
      (∀ other : Path, other.IsKnown → other.text = place.text → other = place) ∧
      ∀ (other : Path) why, other.IsKnown →
        (Error.malformed other why).message = (Error.malformed place reason).message →
        other = place ∧ why = reason := by
  refine ⟨Payload.finds_ofJson j, fun k before place e more more' after after' hj hk =>
    Payload.ofJson_error_congr hj hk, fun place reason h => ?_⟩
  have hhead := (Payload.finds_ofJson j _).1 h
  have hholds := Payload.holdsOf_of_mem_allDefects _ (List.mem_of_mem_head? hhead)
  have ⟨hknown, ⟨part, hpart, hreason⟩, _⟩ := hholds
  exact ⟨hholds, ⟨part, hpart, hreason.says_text⟩, rfl,
    fun other hother htext => Path.text_injective hother hknown htext,
    fun other why hother hmessage => Error.message_malformed_inj hother hknown hmessage⟩

/-- Two documents with a null in a list, behind which the list, its siblings and all that is below them
differ. -/
theorem ofJson_error_null :
    ∃ j k, j ≠ k ∧
      ofJson j = .error (.malformed [.key "rules", .index 0, .key "value", .index 1] .nullInList) ∧
      ofJson k = .error (.malformed [.key "rules", .index 0, .key "value", .index 1] .nullInList) ∧
      (Payload.allDefects j).length = 3 ∧ (Payload.allDefects k).length = 2 ∧
      Reason.Says .null "null inside a value list" ∧
      (Error.malformed [.key "rules", .index 0, .key "value", .index 1] .nullInList).message
        = "malformed filter at filter.rules[0].value[1]: null inside a value list" := by
  let rule (items : List Json) : Json :=
    .object [("id", .string "a"), ("operator", .string "in"), ("value", .array items)]
  let group (items : List Json) : Json :=
    .object [("condition", .string "and"), ("rules", .array items)]
  let j := group [rule [.bool true, .null, .array []], .null]
  let k := group [rule [.bool true, .null], group [.string "b"], rule [.bool false]]
  obtain ⟨hfirst, hbehind, hplace⟩ := ofJson_error j
  have hj := (hfirst (.malformed [.key "rules", .index 0, .key "value", .index 1] .nullInList)).2
    (by decide +kernel)
  have hk := (hbehind k [([], [])] [.key "rules", .index 0]
    (.malformed [.key "value", .index 1] .nullInList) [.malformed [.key "value", .index 2] .notAScalar]
    [] [([.key "rules", .index 1], [.malformed [] .notAnObject])]
    [([.key "rules", .index 1], []),
      ([.key "rules", .index 1, .key "rules", .index 0], [.malformed [] .notAnObject]),
      ([.key "rules", .index 2], [])]
    (by decide +kernel) (by decide +kernel) _).1 hj
  obtain ⟨-, ⟨part, hpart, hsays⟩, hmessage, -, -⟩ := hplace _ _ hj
  obtain rfl := Option.some.inj hpart
  have hthree : (Payload.allDefects j).length = 3 := by decide +kernel
  have htwo : (Payload.allDefects k).length = 2 := by decide +kernel
  refine ⟨j, k, fun h => ?_, hj, hk, hthree, htwo, hsays, hmessage.trans (by decide +kernel)⟩
  rw [h, htwo] at hthree
  exact absurd hthree (by decide)

end Filter

end FilterSql
