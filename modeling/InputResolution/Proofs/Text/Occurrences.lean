import Mathlib.Data.List.Induction
import Mathlib.Data.List.Nodup

namespace InputResolution

/-! Where things stand in a list: the first item with a fault, the last item
that passes a test, and each item where it stands first. -/

def FirstFault (hasFault : α → β → Prop) (items : List α) (fault : β) : Prop :=
  ∃ earlier item later, items = earlier ++ item :: later ∧ hasFault item fault ∧
    ∀ other ∈ earlier, ∀ another, ¬ hasFault other another

section Faults

variable {hasFault : α → β → Prop} {fault? : α → Option β} {items : List α}
  {fault : β}

theorem firstFault_iff
    (hfault : ∀ item fault, hasFault item fault ↔ fault? item = some fault) :
    FirstFault hasFault items fault ↔ items.findSome? fault? = some fault := by
  simp only [FirstFault, List.findSome?_eq_some_iff, hfault,
    ← Option.eq_none_iff_forall_ne_some]

theorem faultless_iff
    (hfault : ∀ item fault, hasFault item fault ↔ fault? item = some fault) :
    (∀ item ∈ items, ∀ fault, ¬ hasFault item fault) ↔
      items.findSome? fault? = none := by
  simp only [List.findSome?_eq_none_iff, hfault,
    ← Option.eq_none_iff_forall_ne_some]

theorem findSome?_filter {keeps : α → Bool}
    (hkeeps : ∀ item fault, fault? item = some fault → keeps item = true) :
    (items.filter keeps).findSome? fault? = items.findSome? fault? := by
  induction items with
  | nil => rfl
  | cons item items ih =>
      cases hkept : keeps item with
      | true =>
          rw [List.filter_cons_of_pos hkept, List.findSome?_cons,
            List.findSome?_cons, ih]
      | false =>
          have hnone : fault? item = none := by
            cases hitem : fault? item with
            | none => rfl
            | some fault => simp [hkeeps item fault hitem] at hkept
          rw [List.filter_cons_of_neg (by simp [hkept]), List.findSome?_cons,
            hnone, ih]

end Faults

theorem find?_reverse_eq_some_iff {passes : α → Bool} {items : List α}
    {item : α} :
    items.reverse.find? passes = some item ↔
      ∃ earlier later, items = earlier ++ item :: later ∧ passes item = true ∧
        ∀ other ∈ later, passes other = false := by
  rw [List.find?_eq_some_iff_append]
  constructor
  · rintro ⟨hitem, later, earlier, hitems, hlater⟩
    refine ⟨earlier.reverse, later.reverse, ?_, hitem, ?_⟩
    · rw [← List.reverse_reverse items, hitems]
      simp
    · intro other hother
      simpa using hlater other (List.mem_reverse.mp hother)
  · rintro ⟨earlier, later, rfl, hitem, hlater⟩
    refine ⟨hitem, later.reverse, earlier.reverse, by simp, ?_⟩
    intro other hother
    simpa using hlater other (List.mem_reverse.mp hother)

theorem exists_related_of_mem {related : α → β → Prop} {first : List α}
    {second : List β} (h : List.Forall₂ related first second) {item : α}
    (hitem : item ∈ first) :
    ∃ other ∈ second, related item other := by
  induction h with
  | nil => cases hitem
  | @cons head other _ others hhead _ ih =>
      rcases List.mem_cons.mp hitem with rfl | hrest
      · exact ⟨other, List.mem_cons_self, hhead⟩
      · obtain ⟨found, hfound, hrelated⟩ := ih hrest
        exact ⟨found, List.mem_cons_of_mem _ hfound, hrelated⟩

section Roster

variable [BEq α] [LawfulBEq α]

def enlist (known : List α) (item : α) : List α :=
  if item ∈ known then known else known ++ [item]

theorem enlist_eraseDups (known : List α) (item : α) :
    enlist known.eraseDups item = (known ++ [item]).eraseDups := by
  rw [List.eraseDups_append, enlist]
  by_cases hitem : item ∈ known <;>
    simp [hitem, List.removeAll, List.eraseDups_cons]

theorem foldl_enlist (known items : List α) :
    items.foldl enlist known.eraseDups = (known ++ items).eraseDups := by
  induction items generalizing known with
  | nil => simp
  | cons item items ih =>
      rw [List.foldl_cons, enlist_eraseDups, ih, List.append_assoc,
        List.singleton_append]

theorem eraseDups_concat (items : List α) (item : α) :
    (items ++ [item]).eraseDups =
      if item ∈ items then items.eraseDups else items.eraseDups ++ [item] := by
  rw [← enlist_eraseDups, enlist]
  simp only [List.mem_eraseDups]

/-- Repetitions may be dropped before the items are turned into others. -/
theorem eraseDups_append_map_filter [BEq β] [LawfulBEq β] (keeps : α → Bool)
    (f : α → β) (prior : List β) (items : List α) :
    (prior ++ (items.eraseDups.filter keeps).map f).eraseDups =
      (prior ++ (items.filter keeps).map f).eraseDups := by
  induction items using List.reverseRecOn with
  | nil => rfl
  | append_singleton items item ih =>
      cases hkept : keeps item with
      | false =>
          rw [eraseDups_concat]
          split <;> simp [hkept, ih]
      | true =>
          have hmap (items : List α) :
              prior ++ ((items ++ [item]).filter keeps).map f =
                (prior ++ (items.filter keeps).map f) ++ [f item] := by
            simp [hkept]
          have hsame : ((prior ++ (items.eraseDups.filter keeps).map f) ++
              [f item]).eraseDups =
            ((prior ++ (items.filter keeps).map f) ++
                [f item]).eraseDups := by
            rw [← enlist_eraseDups, ih, enlist_eraseDups]
          rw [hmap items, ← hsame, eraseDups_concat items]
          split
          · rename_i hitem
            have hmem :
                f item ∈ prior ++ (items.eraseDups.filter keeps).map f := by
              simp only [List.mem_append, List.mem_map, List.mem_filter,
                List.mem_eraseDups]
              exact .inr ⟨item, ⟨hitem, hkept⟩, rfl⟩
            rw [eraseDups_concat, if_pos hmem]
          · rw [hmap]

theorem nodup_eraseDups (items : List α) : items.eraseDups.Nodup := by
  induction items using List.reverseRecOn with
  | nil => exact List.nodup_nil
  | append_singleton items item ih =>
      rw [← enlist_eraseDups, enlist]
      split
      · exact ih
      · rename_i hitem
        rw [← List.concat_eq_append]
        exact ih.concat hitem

end Roster

end InputResolution
