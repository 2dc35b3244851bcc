import InputResolution.Request.Remapping

namespace InputResolution.Remapping

/-! What a token says, and whether the text of a remapping says it again.  A
context that is written but empty keeps the next colon inside the pattern; the
text leaves such a context out, and then that colon ends one. -/

/-- How a token is written from the fields of a remapping. -/
inductive Spells (remapping : Remapping) : Text → Prop
  | withContext : Spells remapping
      (remapping.context ++ ':' :: remapping.pattern ++ '=' :: remapping.target)
  | plain (hcontext : remapping.context = [])
      (hpattern : ':' ∉ remapping.pattern) :
      Spells remapping (remapping.pattern ++ '=' :: remapping.target)

/-- Fields that no separator inside them cuts anew. -/
structure Clean (remapping : Remapping) : Prop where
  colon_notMem_context : ':' ∉ remapping.context
  equals_notMem_context : '=' ∉ remapping.context
  pattern_ne_nil : remapping.pattern ≠ []
  equals_notMem_pattern : '=' ∉ remapping.pattern

theorem cutContext_eq_iff {head context pattern : Text} :
    (Text.cut? ':' head).getD ([], head) = (context, pattern) ↔
      (':' ∉ context ∧ head = context ++ ':' :: pattern) ∨
        (context = [] ∧ ':' ∉ pattern ∧ head = pattern) := by
  cases hcut : Text.cut? ':' head with
  | none =>
      have hcolon := Text.cut?_eq_none_iff.mp hcut
      simp only [Option.getD_none, Prod.mk.injEq]
      constructor
      · rintro ⟨rfl, rfl⟩
        exact .inr ⟨rfl, hcolon, rfl⟩
      · rintro (⟨-, rfl⟩ | ⟨rfl, -, rfl⟩)
        · simp at hcolon
        · exact ⟨rfl, rfl⟩
  | some halves =>
      obtain ⟨hcolon, hhead⟩ := Text.cut?_eq_some_iff.mp hcut
      simp only [Option.getD_some]
      constructor
      · rintro rfl
        exact .inl ⟨hcolon, hhead⟩
      · rintro (hwritten | ⟨-, hpattern, rfl⟩)
        · exact Option.some.inj
            (hcut.symm.trans (Text.cut?_eq_some_iff.mpr hwritten))
        · rw [Text.cut?_eq_none_iff.mpr hpattern] at hcut
          cases hcut

theorem parse?_append_equals {head : Text} (target : Text) (h : '=' ∉ head)
    {context pattern : Text}
    (hfields : (Text.cut? ':' head).getD ([], head) = (context, pattern))
    (hne : pattern ≠ []) :
    parse? (head ++ '=' :: target) = some ⟨context, pattern, target⟩ := by
  have hcut : Text.cut? '=' (head ++ '=' :: target) = some (head, target) :=
    Text.cut?_eq_some_iff.mpr ⟨h, rfl⟩
  simp only [parse?, hcut, hfields]
  rw [if_neg (by simpa using hne)]

theorem exists_head_of_parse? {token : Text} {remapping : Remapping}
    (h : parse? token = some remapping) :
    ∃ head, '=' ∉ head ∧ token = head ++ '=' :: remapping.target ∧
      (Text.cut? ':' head).getD ([], head) =
        (remapping.context, remapping.pattern) ∧
      remapping.pattern ≠ [] := by
  unfold parse? at h
  cases hcut : Text.cut? '=' token with
  | none => simp [hcut] at h
  | some halves =>
      obtain ⟨hequals, htoken⟩ := Text.cut?_eq_some_iff.mp hcut
      simp only [hcut] at h
      split at h
      · cases h
      · rename_i hne
        cases h
        exact ⟨halves.1, hequals, htoken, rfl, by simpa using hne⟩

theorem parse?_eq_some_iff {token : Text} {remapping : Remapping} :
    parse? token = some remapping ↔
    remapping.Clean ∧ remapping.Spells token := by
  constructor
  · intro h
    obtain ⟨head, hequals, rfl, hfields, hne⟩ := exists_head_of_parse? h
    rcases cutContext_eq_iff.mp hfields with
      ⟨hcolon, rfl⟩ | ⟨hcontext, hpattern, rfl⟩
    · simp only [List.mem_append, List.mem_cons, not_or] at hequals
      exact ⟨⟨hcolon, hequals.1, hne, hequals.2.2⟩, .withContext⟩
    · exact ⟨⟨by simp [hcontext], by simp [hcontext], hne, hequals⟩,
        .plain hcontext hpattern⟩
  · rintro ⟨hclean, hspells⟩
    cases hspells with
    | withContext =>
        refine parse?_append_equals _ ?_ ?_ hclean.pattern_ne_nil
        · simp [hclean.equals_notMem_context, hclean.equals_notMem_pattern]
        · exact cutContext_eq_iff.mpr (.inl ⟨hclean.colon_notMem_context, rfl⟩)
    | plain hcontext hpattern =>
        refine parse?_append_equals _ hclean.equals_notMem_pattern ?_
          hclean.pattern_ne_nil
        exact cutContext_eq_iff.mpr (.inr ⟨hcontext, hpattern, rfl⟩)

/-! The text of a remapping as a token. -/

theorem text_of_context_nil {remapping : Remapping}
    (h : remapping.context = []) :
    remapping.text = remapping.pattern ++ '=' :: remapping.target := by
  simp [text, h]

theorem text_of_context_ne_nil {remapping : Remapping}
    (h : remapping.context ≠ []) :
    remapping.text = remapping.context ++ ':' :: remapping.pattern ++ '=' ::
      remapping.target := by
  simp [text, h]

theorem spells_text_iff {remapping : Remapping} :
    remapping.Spells remapping.text ↔
    remapping.context = [] → ':' ∉ remapping.pattern := by
  constructor
  · intro hspells hcontext
    generalize htext : remapping.text = token at hspells
    rw [text_of_context_nil hcontext] at htext
    cases hspells with
    | withContext =>
        have hlength := congrArg List.length htext
        simp [hcontext] at hlength
    | plain _ hpattern => exact hpattern
  · intro hpattern
    by_cases hcontext : remapping.context = []
    · rw [text_of_context_nil hcontext]
      exact .plain hcontext (hpattern hcontext)
    · rw [text_of_context_ne_nil hcontext]
      exact .withContext

/-- A remapping is read back from its text exactly where no separator inside its
context or its pattern cuts the text elsewhere.  The target may hold any. -/
theorem parse?_text_iff {remapping : Remapping} :
    parse? remapping.text = some remapping ↔
      (':' ∉ remapping.context ∧ '=' ∉ remapping.context) ∧
        (remapping.pattern ≠ [] ∧ '=' ∉ remapping.pattern) ∧
        (remapping.context ≠ [] ∨ ':' ∉ remapping.pattern) := by
  rw [parse?_eq_some_iff, spells_text_iff]
  constructor
  · rintro ⟨hclean, hcolon⟩
    refine ⟨⟨hclean.colon_notMem_context, hclean.equals_notMem_context⟩,
      ⟨hclean.pattern_ne_nil, hclean.equals_notMem_pattern⟩, ?_⟩
    by_cases hcontext : remapping.context = []
    · exact .inr (hcolon hcontext)
    · exact .inl hcontext
  · rintro ⟨⟨hcolon, hequals⟩, ⟨hne, hpattern⟩, hcontext⟩
    exact ⟨⟨hcolon, hequals, hne, hpattern⟩,
      fun hnil => hcontext.resolve_left (· hnil)⟩

/-- A token that begins with a colon and has another one before any equals sign:
its context is empty and its pattern holds the second colon. -/
def ShieldsColon (token : Text) : Prop :=
  ∃ between rest, token = ':' :: between ++ ':' :: rest ∧ '=' ∉ between

theorem colon_mem_of_append_eq {pattern between target rest : Text}
    (h : pattern ++ '=' :: target = between ++ ':' :: rest)
    (hequals : '=' ∉ between) :
    ':' ∈ pattern := by
  rcases List.append_eq_append_iff.mp h with
    ⟨tail, rfl, htail⟩ | ⟨tail, rfl, htail⟩
  · cases tail with
    | nil => simp at htail
    | cons c tail =>
        obtain rfl : '=' = c := (List.cons.inj htail).1
        simp at hequals
  · cases tail with
    | nil => simp at htail
    | cons c tail =>
        obtain rfl : ':' = c := (List.cons.inj htail).1
        simp

theorem shieldsColon_iff {token : Text} {remapping : Remapping}
    (hclean : remapping.Clean) (hspells : remapping.Spells token) :
    ShieldsColon token ↔ remapping.context = [] ∧ ':' ∈ remapping.pattern := by
  cases hspells with
  | withContext =>
      constructor
      · rintro ⟨between, rest, htoken, hequals⟩
        have hcontext : remapping.context = [] := by
          cases hcontext : remapping.context with
          | nil => rfl
          | cons c context =>
              rw [hcontext] at htoken
              obtain rfl : c = ':' := (List.cons.inj htoken).1
              exact absurd hclean.colon_notMem_context (by simp [hcontext])
        rw [hcontext] at htoken
        exact ⟨hcontext,
          colon_mem_of_append_eq (List.cons.inj htoken).2 hequals⟩
      · rintro ⟨hcontext, hpattern⟩
        obtain ⟨between, rest, hbetween⟩ := List.append_of_mem hpattern
        refine ⟨between, rest ++ '=' :: remapping.target,
          by simp [hcontext, hbetween], ?_⟩
        intro hequals
        exact hclean.equals_notMem_pattern (by simp [hbetween, hequals])
  | plain hcontext hpattern =>
      refine iff_of_false ?_ fun h => hpattern h.2
      rintro ⟨between, rest, htoken, -⟩
      obtain ⟨c, others, hcons⟩ :=
        List.exists_cons_of_ne_nil hclean.pattern_ne_nil
      rw [hcons] at htoken
      obtain rfl : c = ':' := (List.cons.inj htoken).1
      exact hpattern (by simp [hcons])

/-- The text of a remapping is read as that remapping again, unless it was
written with an empty context in front of a colon. -/
theorem parse?_text_iff_of_parse? {token : Text} {remapping : Remapping}
    (h : parse? token = some remapping) :
    parse? remapping.text = some remapping ↔ ¬ ShieldsColon token := by
  obtain ⟨hclean, hspells⟩ := parse?_eq_some_iff.mp h
  rw [parse?_eq_some_iff, shieldsColon_iff hclean hspells, spells_text_iff,
    not_and]
  exact and_iff_right hclean

theorem parse?_text_iff_of_parse?_nested :
    parse? ['a', ':', 'b', ':', 'c', '=', 'd', ':', '=', 'e'] =
        some ⟨['a'], ['b', ':', 'c'], ['d', ':', '=', 'e']⟩ ∧
      parse? (text ⟨['a'], ['b', ':', 'c'], ['d', ':', '=', 'e']⟩) =
        some ⟨['a'], ['b', ':', 'c'], ['d', ':', '=', 'e']⟩ := by
  have hparse : parse? ['a', ':', 'b', ':', 'c', '=', 'd', ':', '=', 'e'] =
      some ⟨['a'], ['b', ':', 'c'], ['d', ':', '=', 'e']⟩ := by decide
  refine ⟨hparse, (parse?_text_iff_of_parse? hparse).mpr ?_⟩
  rintro ⟨between, rest, htoken, -⟩
  simp at htoken

theorem parse?_text_ne_of_shielded :
    parse? [':', 'b', ':', 'c', '=', 'd'] = some ⟨[], ['b', ':', 'c'], ['d']⟩ ∧
      parse? (text ⟨[], ['b', ':', 'c'], ['d']⟩) = some ⟨['b'], ['c'], ['d']⟩ ∧
      parse? (text ⟨[], ['b', ':', 'c'], ['d']⟩) ≠
        some ⟨[], ['b', ':', 'c'], ['d']⟩ := by
  decide

end InputResolution.Remapping
