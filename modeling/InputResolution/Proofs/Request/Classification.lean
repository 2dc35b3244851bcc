import InputResolution.Proofs.Request.Planning
import InputResolution.Proofs.Request.Remapping
import Mathlib.Data.List.Forall2

namespace InputResolution

/-! Tokens by their form.  A token is the marker of standard input, a remapping
that it spells, a failed attempt at one, or a path.  Main statement: a remapping
is parsed from the tokens that spell it and from no others, no token spells two,
and each token of a list is taken for what its form says. -/

namespace Remapping

variable {token : Text}

theorem Clean.unique {first second : Remapping} (hfirst : first.Clean)
    (hspells : first.Spells token) (hsecond : second.Clean)
    (hother : second.Spells token) :
    first = second := by
  have hparse := parse?_eq_some_iff.mpr ⟨hfirst, hspells⟩
  rw [parse?_eq_some_iff.mpr ⟨hsecond, hother⟩] at hparse
  exact (Option.some.inj hparse).symm

theorem parse?_eq_none_iff :
    parse? token = none ↔ ∀ remapping : Remapping, remapping.Clean →
    ¬ remapping.Spells token := by
  simp only [Option.eq_none_iff_forall_ne_some, ne_eq, parse?_eq_some_iff,
    not_and]

end Remapping

namespace Token

/-- What a token stands for by its form. -/
inductive Denotes : Text → Token → Prop
  | stdin : Denotes stdinMarker .stdin
  | remapping (hclean : parsed.Clean) (hspells : parsed.Spells token) :
      Denotes token (.remapping parsed)
  | badRemapping (hdirective : IsDirective token)
      (hunspelled : ∀ remapping : Remapping, remapping.Clean →
        ¬ remapping.Spells token) :
      Denotes token (.badRemapping token)
  | path (hpath : NamesPath token) : Denotes token (.path token)

variable {token : Text} {kind : Token}

theorem denotes_classify (token : Text) : Denotes token (classify token) := by
  rcases classify_cases token with
    ⟨parsed, -, hparse, h⟩ | ⟨hdirective, hparse, h⟩ |
    ⟨hmarker, -, h⟩ | ⟨hpath, -, h⟩ <;> rw [h]
  · obtain ⟨hclean, hspells⟩ := Remapping.parse?_eq_some_iff.mp hparse
    exact .remapping hclean hspells
  · exact .badRemapping hdirective (Remapping.parse?_eq_none_iff.mp hparse)
  · exact hmarker ▸ .stdin
  · exact .path hpath

theorem Denotes.classify_eq (h : Denotes token kind) :
    classify token = kind := by
  cases h with
  | stdin => rfl
  | remapping hclean hspells =>
      have hparse := Remapping.parse?_eq_some_iff.mpr ⟨hclean, hspells⟩
      have hdirective := Remapping.isDirective_of_parse? hparse
      rw [classify, if_neg hdirective.ne_stdinMarker,
        if_pos (Remapping.isWrittenAs_iff.mpr hdirective), hparse]
  | badRemapping hdirective hunspelled =>
      have hparse := Remapping.parse?_eq_none_iff.mpr hunspelled
      rw [classify, if_neg hdirective.ne_stdinMarker,
        if_pos (Remapping.isWrittenAs_iff.mpr hdirective), hparse]
  | path hpath =>
      rw [classify, if_neg hpath.1,
        if_neg (mt Remapping.isWrittenAs_iff.mp hpath.2)]

theorem classify_eq_iff : classify token = kind ↔ Denotes token kind :=
  ⟨fun h => h ▸ denotes_classify token, Denotes.classify_eq⟩

theorem map_classify_eq_iff {tokens : List Text} {kinds : List Token} :
    tokens.map classify = kinds ↔ List.Forall₂ Denotes tokens kinds := by
  rw [← List.forall₂_eq_eq_eq, List.forall₂_map_left_iff]
  simp only [classify_eq_iff]

theorem read_by_form :
    (∀ (token : Text) (remapping : Remapping),
        Remapping.parse? token = some remapping ↔
          remapping.Clean ∧ remapping.Spells token) ∧
      (∀ (token : Text) (first second : Remapping),
        first.Clean → first.Spells token →
          second.Clean → second.Spells token → first = second) ∧
      ∀ (tokens : List Text) (kinds : List Token),
        tokens.map classify = kinds ↔ List.Forall₂ Denotes tokens kinds :=
  ⟨fun _ _ => Remapping.parse?_eq_some_iff,
    fun _ _ _ hfirst hspells hsecond hother =>
      hfirst.unique hspells hsecond hother,
    fun _ _ => map_classify_eq_iff⟩

example :
    [['-'], [':', 'a', ':', 'b', '='], ['a', ':', '=', 'b'],
      ['C', ':', 'x']].map classify =
    [.stdin, .remapping ⟨[], ['a', ':', 'b'], []⟩,
      .badRemapping ['a', ':', '=', 'b'],
      .path ['C', ':', 'x']] := by
  decide

end Token

end InputResolution
