import FilterSql.Filter.Parts
import FilterSql.Proofs.Filter.Canonicity
import FilterSql.Proofs.Json.Reading

/-!
# Documents are twice as deep as their filters

A group takes an object and the array under its `rules`, and a rule an object.  So a part of a filter
lies in its document below two levels for each group above it (`Payload.places_of_ofJson`), which
bounds the groups on a branch by half the depth (`Filter.two_mul_levels_le_depth`).  The bound is met:
a chain of groups around a rule can be read as long as it has no more than the levels that are allowed
(`Filter.ofText?_chain`).
-/

namespace FilterSql

/-! ### Parts and their documents -/

theorem Json.StandsFor.depth_rule {j : Json} {r : Rule} (h : j.StandsFor (.rule r)) :
    1 ≤ j.depth := by
  cases h with
  | rule _ tag _ _ _ => exact Nat.lt_of_le_of_lt (Nat.zero_le _) (depth_member?_lt tag)

theorem Json.StandsFor.depth_group {j : Json} {connective : Connective} {children : List Filter}
    (h : j.StandsFor (.group connective children)) : 2 ≤ j.depth := by
  cases h with
  | @group _ items _ _ _ rules _ _ _ =>
    have hrules := depth_member?_lt rules
    rw [depth] at hrules
    omega

/-- Each part of the filter is what is read from the part of the document at its path. -/
def Json.Places (j : Json) (f : Filter) : Prop :=
  ∀ indices part, f.at? indices = some part →
    ∃ k, j.at? (Path.ofIndices indices) = some k ∧ Filter.ofJson k = .ok part

theorem Json.Places.ofJson {j : Json} {f : Filter} (h : j.Places f) : Filter.ofJson j = .ok f := by
  obtain ⟨k, hk, hread⟩ := h [] f rfl
  rwa [← Option.some.inj hk] at hread

namespace Payload

/-- A filter that is read has all its parts read where they stand in the document. -/
theorem places_of_ofJson (j : Json) : ∀ f, Filter.ofJson j = .ok f → j.Places f := by
  refine read_induction (fun j r hn indices part hat => ?_)
    (fun j connective items children hn hchildren indices part hat => ?_) j
  · cases indices with
    | nil =>
      obtain rfl := Option.some.inj hat
      exact ⟨j, rfl, Filter.ofJson_of_rule hn⟩
    | cons i place => simp [Filter.at?] at hat
  · cases indices with
    | nil =>
      obtain rfl := Option.some.inj hat
      have hread : List.Forall₂ (fun item child => Filter.ofJson item = .ok child) items children :=
        hchildren.imp fun item child h => h.ofJson
      refine ⟨j, rfl, ?_⟩
      rw [Filter.ofJson_of_group hn, eachAt_eq_ok_iff_forall₂.2 hread]
      rfl
    | cons i place =>
      obtain ⟨child, hi, hat⟩ := Option.bind_eq_some_iff.1 hat
      obtain ⟨item, hitem, hplaces⟩ := exists_getElem?_of_forall₂ hchildren hi
      have hrules := member?_rules_of_readItems (readItems_of_readNode hn)
      have hstep : j.at? [.key "rules", .index i] = some item := by
        simpa [Json.at?, Json.step?, hrules] using hitem
      obtain ⟨k, hk, hread⟩ := hplaces place part hat
      exact ⟨k, by rw [Path.ofIndices_cons, Json.at?_append, hstep]; exact hk, hread⟩

/-- The objects that are looked at lie at paths of parts. -/
theorem exists_ofIndices_of_mem_nodes (j : Json) :
    ∀ node ∈ nodes j, ∃ indices, node.1 = Path.ofIndices indices := by
  induction j using Payload.induction with
  | step j ih =>
    intro node hn
    rw [nodes_eq, List.mem_cons, List.mem_flatMap] at hn
    rcases hn with rfl | ⟨⟨item, i⟩, hi, hn⟩
    · exact ⟨[], rfl⟩
    · obtain ⟨below, hb, rfl⟩ := List.mem_map.1 hn
      have hitem := List.mem_of_getElem? (List.mem_zipIdx_iff_getElem?.1 hi)
      obtain ⟨indices, hindices⟩ := ih item hitem below hb
      exact ⟨i :: indices, by rw [hindices, Path.ofIndices_cons]⟩

/-- Two levels lie between an object that is looked at and the next one below it. -/
theorem two_mul_length_le_depth {j : Json} {node : Path × Json} (h : node ∈ nodes j) :
    ∃ indices, node.1 = Path.ofIndices indices ∧ 2 * indices.length ≤ j.depth := by
  obtain ⟨indices, hindices⟩ := exists_ofIndices_of_mem_nodes j node h
  have hdepth := Json.length_add_depth_le_of_at? (at?_of_mem_nodes j node h)
  rw [hindices, Path.length_ofIndices] at hdepth
  exact ⟨indices, hindices, by omega⟩

end Payload

namespace Filter

variable {j : Json} {f : Filter} {indices : List Nat}

/-- A branch that ends with a group. -/
theorem depth_of_at?_group (h : ofJson j = .ok f) {connective : Connective} {children : List Filter}
    (hat : f.at? indices = some (.group connective children)) :
    2 * (indices.length + 1) ≤ j.depth := by
  obtain ⟨k, hk, hread⟩ := Payload.places_of_ofJson j f h indices _ hat
  have hgroup := (Payload.standsFor_of_ofJson k _ hread).depth_group
  have hpath := Json.length_add_depth_le_of_at? hk
  rw [Path.length_ofIndices] at hpath
  omega

/-- A branch that ends with a rule. -/
theorem depth_of_at?_rule (h : ofJson j = .ok f) {r : Rule} (hat : f.at? indices = some (.rule r)) :
    2 * indices.length + 1 ≤ j.depth := by
  obtain ⟨k, hk, hread⟩ := Payload.places_of_ofJson j f h indices _ hat
  have hrule := (Payload.standsFor_of_ofJson k _ hread).depth_rule
  have hpath := Json.length_add_depth_le_of_at? hk
  rw [Path.length_ofIndices] at hpath
  omega

theorem two_mul_levels_le_depth (h : ofJson j = .ok f) : 2 * f.levels ≤ j.depth := by
  have hlevels : f.levels ≤ j.depth / 2 := by
    refine (f.levels_le_iff _).2 fun indices connective children hat => ?_
    have := depth_of_at?_group h hat
    omega
  omega

theorem two_mul_length_le_depth (h : ofJson j = .ok f) {part : Filter}
    (hat : f.at? indices = some part) : 2 * indices.length ≤ j.depth := by
  cases part with
  | rule r =>
    have := depth_of_at?_rule h hat
    omega
  | group connective children =>
    have := depth_of_at?_group h hat
    omega

/-! ### Documents of texts -/

/-- No object in a text is looked at that lies deeper, whether a filter is read or not. -/
theorem length_le_of_mem_nodes {s : String} (hj : Json.ofText? s = some j) {node : Path × Json}
    (h : node ∈ Payload.nodes j) :
    ∃ indices, node.1 = Path.ofIndices indices ∧ indices.length ≤ 63 := by
  have hdepth : j.depth ≤ 127 := Json.depth_le_of_ofText? hj
  obtain ⟨indices, hindices, hlength⟩ := Payload.two_mul_length_le_depth h
  exact ⟨indices, hindices, by omega⟩

theorem levels_le_of_ofText? {s : String} (h : ofText? s = .ok f) : f.levels ≤ 63 := by
  obtain ⟨j, hj, hread⟩ := ofText?_eq_ok_iff.1 h
  have hdepth : j.depth ≤ 127 := Json.depth_le_of_ofText? hj
  have := two_mul_levels_le_depth hread
  omega

theorem length_le_of_ofText? {s : String} (h : ofText? s = .ok f) {part : Filter}
    (hat : f.at? indices = some part) : indices.length ≤ 63 := by
  obtain ⟨j, hj, hread⟩ := ofText?_eq_ok_iff.1 h
  have hdepth : j.depth ≤ 127 := Json.depth_le_of_ofText? hj
  have := two_mul_length_le_depth hread hat
  omega

/-! ### Chains of groups -/

/-- The given number of groups, each the only child of the one above it, and a rule in the last. -/
def chain : Nat → Filter
  | 0 => .rule ⟨"", .string, .isEmpty, .absent⟩
  | n + 1 => .group .and [chain n]

/-- The document of a chain, in front of the rest. -/
def chainText : Nat → List Char → List Char
  | 0, rest =>
    '\x7b' :: Json.inQuotes "field" (':' :: Json.inQuotes "" (',' ::
      Json.inQuotes "type" (':' :: Json.inQuotes "string" (',' ::
        Json.inQuotes "operator" (':' :: Json.inQuotes "is_empty" ('\x7d' :: rest))))))
  | n + 1, rest =>
    '\x7b' :: Json.inQuotes "condition" (':' :: Json.inQuotes "AND" (',' ::
      Json.inQuotes "rules" (':' :: '[' :: chainText n (']' :: '\x7d' :: rest))))

theorem levels_chain (n : Nat) : (chain n).levels = n := by
  induction n with
  | zero => rfl
  | succ n ih => simp [chain, levels, levelsOfAll, ih]

theorem canonical_chain (n : Nat) : (chain n).Canonical := by
  induction n with
  | zero =>
    simp [chain, Canonical, rules, Rule.Canonical, Value.Fits, Operator.arity, Value.scalars,
      FieldType.IsProper]
  | succ n ih => exact canonical_group_iff.2 (by simpa using ih)

theorem exists_chainText_eq (n : Nat) (rest : List Char) : ∃ cs, chainText n rest = '\x7b' :: cs := by
  cases n <;> exact ⟨_, rfl⟩

/-- A chain takes two levels for each group and one for its rule, and no more. -/
theorem value_chainText (n more : Nat) (rest : List Char) :
    Json.value (2 * n + 1 + more) (chainText n rest) = some ((chain n).toPayload, rest) := by
  induction n generalizing rest with
  | zero =>
    have hlevels : 2 * 0 + 1 + more = more + 1 := by omega
    have hfield := Json.member_text "field" "" (by simp [Json.IsPlain]) (by simp) more
    have htype :=
      Json.member_text "type" "string" (by simp [Json.IsPlain]) (by simp [Json.IsPlain]) more
    have hoperator :=
      Json.member_text "operator" "is_empty" (by simp [Json.IsPlain]) (by simp [Json.IsPlain]) more
    have hobject : Json.ofMembers [("field", .string ""), ("type", .string "string"),
        ("operator", .string "is_empty")] = (chain 0).toPayload := rfl
    rw [hlevels, chainText, ← hobject]
    refine Json.value_object (Json.listing_of_items (by decide) (by decide) ?_)
    exact Json.items_cons (hfield _) (by decide)
      (Json.items_cons (htype _) (by decide) (Json.items_last (hoperator _) (by decide)))
  | succ n ih =>
    have hlevels : 2 * (n + 1) + 1 + more = 2 * n + 1 + more + 1 + 1 := by omega
    have hrules : Json.value (2 * n + 1 + more + 1) ('[' :: chainText n (']' :: '\x7d' :: rest))
        = some (.array [(chain n).toPayload], '\x7d' :: rest) := by
      have hchild := ih (']' :: '\x7d' :: rest)
      obtain ⟨cs, hcs⟩ := exists_chainText_eq n (']' :: '\x7d' :: rest)
      rw [hcs] at hchild ⊢
      exact Json.value_array
        (Json.listing_of_items (by decide) (by decide) (Json.items_last hchild (by decide)))
    have hcondition := Json.member_text "condition" "AND" (by simp [Json.IsPlain])
      (by simp [Json.IsPlain]) (2 * n + 1 + more + 1)
    have hobject : Json.ofMembers [("condition", .string "AND"),
        ("rules", .array [(chain n).toPayload])] = (chain (n + 1)).toPayload := rfl
    rw [hlevels, chainText, ← hobject]
    refine Json.value_object (Json.listing_of_items (by decide) (by decide) ?_)
    exact Json.items_cons (hcondition _) (by decide)
      (Json.items_last (Json.member_inQuotes (by simp [Json.IsPlain]) hrules) (by decide))

/-- Chains are read up to the number of groups that the levels of a text leave room for. -/
theorem ofText?_chain {n : Nat} (h : 2 * n + 1 ≤ Json.levels) :
    Json.ofText? (String.ofList (chainText n [])) = some (chain n).toPayload ∧
      ofText? (String.ofList (chainText n [])) = .ok (chain n) := by
  obtain ⟨more, hmore⟩ := Nat.exists_eq_add_of_le h
  have hvalue := value_chainText n more []
  have hread : Json.ofText? (String.ofList (chainText n [])) = some (chain n).toPayload := by
    rw [Json.ofText?, String.toList_ofList, hmore, hvalue]
    rfl
  refine ⟨hread, ?_⟩
  rw [ofText?, hread]
  exact ofJson_toPayload_of_canonical _ (canonical_chain n)

end Filter

end FilterSql
