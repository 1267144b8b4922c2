import FilterSql.Proofs.Filter.Depth
import FilterSql.Proofs.Sql.Documents
import FilterSql.Proofs.Sql.Nesting

/-!
# Texts are as deep as their filters

The outline of a filter has the levels of the filter, so the text of a filter has a parenthesis for each
group on a branch and at most one more (`Filter.nested_rootOutline`).  With the levels that a JSON text
may have, that bounds the groups of every filter that is read from a text, and the parentheses of
every text that is compiled (`nesting_bounded`).  A chain of groups meets both bounds.
-/

namespace FilterSql

open Token

namespace Filter

/-! ### Levels of outlines -/

theorem levels_outline (f : Filter) : f.outline.levels = f.levels := by
  induction f using Filter.induction with
  | rule r => rfl
  | group connective children ih =>
    have hchildren : Predicate.levelsOfAll (outlines children) = levelsOfAll children := by
      rw [outlines_eq_map]
      induction children with
      | nil => rfl
      | cons f fs ihs =>
        obtain ⟨hf, hfs⟩ := List.forall_mem_cons.1 ih
        rw [List.map_cons, Predicate.levelsOfAll, levelsOfAll, hf, ihs hfs]
    rw [outline, Predicate.levels, levels, hchildren]

/-- A lone rule stands in a group of its own. -/
theorem nested_rootOutline {column : List Token} (hc : Nested 0 column) (f : Filter) :
    Nested (max f.levels 1 + 1) (f.rootOutline.tokens column) := by
  have hlevels : f.rootOutline.levels ≤ max f.levels 1 := by
    cases f with
    | rule r => exact Nat.le_max_right _ _
    | group connective children => exact (levels_outline _).trans_le (Nat.le_max_left _ _)
  exact (f.rootOutline.nested_tokens hc).mono (Nat.succ_le_succ hlevels)

/-- The parentheses in the text of a filter, those in literals and names left aside. -/
theorem depths_toSql {options : Options} (he : options.escaping = .doubled) {f : Filter}
    {target sql : String} (h : f.toSql options target = .ok sql) :
    ∃ tokens, Token.scan options.dialect sql = some tokens ∧
      ∀ n ∈ Token.depths 0 tokens, n ≤ (max f.levels 1 + 1 : Nat) := by
  obtain ⟨rfl, -⟩ := toSql_eq_ok h
  exact ⟨_, Predicate.scan_against he target _,
    (f.nested_rootOutline (Token.nested_ofName target)).depths_le⟩

end Filter

theorem depths_compileText {options : Options} {s target sql : String}
    (he : options.escaping = .doubled) (h : compileText options s target = .ok (some sql)) :
    ∃ tokens, Token.scan options.dialect sql = some tokens ∧
      ∀ n ∈ Token.depths 0 tokens, n ≤ 64 := by
  obtain ⟨f, hread, hsql⟩ := exists_ofText?_of_compileText h
  obtain ⟨tokens, hscan, hdepths⟩ := Filter.depths_toSql he hsql
  have hlevels := Filter.levels_le_of_ofText? hread
  refine ⟨tokens, hscan, fun n hn => ?_⟩
  have := hdepths n hn
  omega

namespace Filter

/-! ### Chains that compile -/

theorem at?_chain (n : Nat) : (chain n).at? (List.replicate n 0) = some (chain 0) := by
  induction n with
  | zero => rfl
  | succ n ih => simpa [chain, at?, List.replicate_succ] using ih

theorem compilable_chain (unknown : UnknownTypes) (n : Nat) : (chain n).Compilable unknown := by
  induction n with
  | zero => exact .rule nofun trivial
  | succ n ih => exact .group (by simp) (by simpa using ih)

/-- A chain that can be read compiles. -/
theorem exists_compileText_chain {n : Nat} (h : 2 * n + 1 ≤ Json.levels) (options : Options)
    (target : String) : ∃ sql, (chain n).toSql options target = .ok sql ∧
      compileText options (String.ofList (chainText n [])) target = .ok (some sql) := by
  obtain ⟨sql, hsql⟩ := exists_toSql_iff.2 (compilable_chain options.unknownTypes n)
  obtain ⟨hjson, hread⟩ := ofText?_chain h
  have hblank : Text.isAllBlank (String.ofList (chainText n [])) = false := by
    obtain ⟨cs, hcs⟩ := exists_chainText_eq n []
    have hbrace : Text.isBlank '\x7b' = false := by decide
    simp [Text.isAllBlank, hcs, hbrace]
  have hvacant : Payload.isVacant (chain n).toPayload = false := by
    cases n <;> rfl
  refine ⟨sql, hsql, ?_⟩
  rw [compileText_of_ofText? hblank hjson, compileJson_of_not_isVacant hvacant,
    ofJson_toPayload_of_canonical _ (canonical_chain n)]
  exact Except.map_eq_ok_iff.2 ⟨sql, hsql, rfl⟩

/-- The rule of a chain opens one parenthesis more than there are groups. -/
theorem mem_depths_chain {column : List Token} (hc : Nested 0 column) (n : Nat) :
    (n + 1 : Int) ∈ Token.depths 0 ((chain n).outline.tokens column) := by
  induction n with
  | zero => simp [chain, outline, Rule.outline, Predicate.tokens, Test.tokens, Token.depths, step]
  | succ n ih =>
    have htokens : (chain (n + 1)).outline.tokens column
        = .opening :: (chain n).outline.tokens column ++ [.closing] := by
      simp [chain, outline, outlines, Predicate.tokens, Predicate.tokensOfAll]
    rw [htokens, ((chain n).outline.balanced_tokens hc).depths_enclosed_eq]
    have hlifted : (n + 1 + 1 : Int)
        ∈ (Token.depths 0 ((chain n).outline.tokens column)).map (1 + ·) :=
      List.mem_map.2 ⟨_, ih, by omega⟩
    simp [hlifted]

end Filter

/-! ### Main result -/

/-- A branch with some groups takes two levels of the document for each, and one more for a rule below
them.  A text has at most 127 levels, so whatever it holds, no object that is looked at lies below
more than 63 groups, no branch of a filter that is read has more than 63, which some branch has, and
no more than 64 parentheses of what it compiles to are open at a time. -/
theorem nesting_bounded :
    (∀ j f, Filter.ofJson j = .ok f →
      (∀ indices connective children, f.at? indices = some (.group connective children) →
        2 * (indices.length + 1) ≤ j.depth) ∧
      ∀ indices r, f.at? indices = some (.rule r) → 2 * indices.length + 1 ≤ j.depth) ∧
    (∀ s j, Json.ofText? s = some j → j.depth ≤ 127 ∧
      ∀ node ∈ Payload.nodes j, ∃ indices, node.1 = Path.ofIndices indices ∧
        indices.length ≤ 63) ∧
    (∀ s f, Filter.ofText? s = .ok f → f.levels ≤ 63 ∧
      ∀ indices part, f.at? indices = some part → indices.length ≤ 63) ∧
    (∃ s f, Filter.ofText? s = .ok f ∧ f.levels = 63) ∧
    ∀ options s target sql, options.escaping = .doubled →
      compileText options s target = .ok (some sql) →
      ∃ tokens, Token.scan options.dialect sql = some tokens ∧
        ∀ n ∈ Token.depths 0 tokens, n ≤ 64 := by
  refine ⟨fun j f h => ⟨fun _ _ _ => Filter.depth_of_at?_group h, fun _ _ => ?_⟩,
    fun s j hj => ⟨Json.depth_le_of_ofText? hj, fun node => Filter.length_le_of_mem_nodes hj⟩,
    fun s f h => ⟨Filter.levels_le_of_ofText? h, fun _ _ => Filter.length_le_of_ofText? h⟩,
    ?_, fun options s target sql => depths_compileText⟩
  · exact Filter.depth_of_at?_rule h
  · obtain ⟨-, hread⟩ := Filter.ofText?_chain (n := 63) (by decide)
    exact ⟨_, _, hread, Filter.levels_chain 63⟩

/-- A chain of 63 groups takes all levels of its text, and its rule opens the last parenthesis. -/
theorem nesting_bounded_chain :
    ∃ sql tokens,
      Filter.ofText? (String.ofList (Filter.chainText 63 [])) = .ok (Filter.chain 63) ∧
      (Filter.chain 63).levels = 63 ∧ (Filter.chain 63).toPayload.depth = 127 ∧
      compileText {} (String.ofList (Filter.chainText 63 [])) "c" = .ok (some sql) ∧
      Token.scan .mysql sql = some tokens ∧ (∀ n ∈ Token.depths 0 tokens, n ≤ 64) ∧
      64 ∈ Token.depths 0 tokens := by
  have hfits : 2 * 63 + 1 ≤ Json.levels := by decide
  obtain ⟨hjson, hread⟩ := Filter.ofText?_chain hfits
  obtain ⟨sql, hsql, hcompile⟩ := Filter.exists_compileText_chain hfits {} "c"
  obtain ⟨hbranches, htexts, -, -, hdepths⟩ := nesting_bounded
  obtain ⟨tokens, hscan, hle⟩ := hdepths {} _ "c" sql rfl hcompile
  have hdocument := Filter.ofJson_toPayload_of_canonical _ (Filter.canonical_chain 63)
  have hrule := (hbranches _ _ hdocument).2 _ _ (Filter.at?_chain 63)
  rw [List.length_replicate] at hrule
  have htokens : tokens = (Filter.chain 63).outline.tokens (Token.ofName "c") := by
    obtain ⟨rfl, -⟩ := Filter.toSql_eq_ok hsql
    exact Option.some.inj (hscan.symm.trans (Predicate.scan_against rfl "c" _))
  refine ⟨sql, tokens, hread, Filter.levels_chain 63, Nat.le_antisymm (htexts _ _ hjson).1 hrule,
    hcompile, hscan, hle, ?_⟩
  rw [htokens]
  exact Filter.mem_depths_chain (Token.nested_ofName "c") 63

end FilterSql
