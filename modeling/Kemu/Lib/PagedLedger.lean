import Mathlib.Logic.Function.Basic

/-!
# Ledgers that account for their own pages

A ledger counts items.  The counts are kept on pages, one for each group of
items, and a page fills one item itself, which is counted as well.  A page is
known by the position of its item: the item times a unit, and zero for a
group that has no page.

Progress is what an allocator makes: it counts items of a range that were not
in use, and adds pages in items that were not in use, behind the range.
-/

namespace Kemu.Lib.PagedLedger

/-- The page of each group and the count of each item. -/
structure Ledger where
  page : Nat → Nat
  count : Nat → Nat

namespace Ledger

/-- An item of its own for each page, within so many groups. -/
structure Accounted (groups unit : Nat) (ledger : Ledger) : Prop where
  counted :
    ∀ group < groups, ledger.page group ≠ 0 →
      ledger.count (ledger.page group / unit) ≠ 0

/-- An item that has become a page. -/
def NewPage (groups unit : Nat) (before after : Ledger) (item : Nat) :
    Prop :=
  ∃ group < groups,
    before.page group = 0 ∧ after.page group ≠ 0 ∧
      after.page group = item * unit

/--
The items from `first` to `last` are counted now, and so are new pages, from
the item `low` on; nothing else has changed.
-/
structure Progress (groups unit low first last : Nat)
    (before after : Ledger) : Prop where
  kept :
    ∀ group < groups, before.page group ≠ 0 →
      after.page group = before.page group
  made :
    ∀ group < groups, before.page group = 0 → after.page group ≠ 0 →
      ∃ item, after.page group = item * unit ∧ low ≤ item ∧
        before.count item = 0 ∧ after.count item = 1
  taken :
    ∀ item, first ≤ item → item < last →
      before.count item = 0 ∧ after.count item = 1
  others :
    ∀ item, ¬ (first ≤ item ∧ item < last) →
      ¬ NewPage groups unit before after item →
        after.count item = before.count item

variable {groups unit low : Nat} {before middle after : Ledger}

theorem Progress.new_item (positive : 0 < unit) {first last item : Nat}
    (progress : Progress groups unit low first last before after)
    (new : NewPage groups unit before after item) :
    low ≤ item ∧ before.count item = 0 ∧ after.count item = 1 := by
  obtain ⟨group, inGroups, absent, present, place⟩ := new
  obtain ⟨found, foundPlace, behind, unused, counted⟩ :=
    progress.made group inGroups absent present
  have same : found = item :=
    Nat.eq_of_mul_eq_mul_right positive (foundPlace.symm.trans place)
  rw [← same]
  exact ⟨behind, unused, counted⟩

theorem Progress.refl (ledger : Ledger) (first : Nat) :
    Progress groups unit low first first ledger ledger := by
  constructor
  · exact fun _ _ _ => rfl
  · exact fun _ _ absent present => absurd absent present
  · exact fun _ behind before => absurd before (Nat.not_lt.mpr behind)
  · exact fun _ _ _ => rfl

/-- Progress by one item. -/
theorem Progress.count {item : Nat} (unused : before.count item = 0) :
    Progress groups unit low item (item + 1) before
      ⟨before.page, Function.update before.count item 1⟩ := by
  constructor
  · exact fun _ _ _ => rfl
  · exact fun _ _ absent present => absurd absent present
  · intro other reached within
    obtain rfl : other = item := by omega
    exact ⟨unused, Function.update_self _ _ _⟩
  · intro other outside _
    exact Function.update_of_ne (by omega) _ _

/-- Progress by one page. -/
theorem Progress.page {group item first : Nat}
    (inGroups : group < groups) (absent : before.page group = 0)
    (present : item * unit ≠ 0) (behind : low ≤ item)
    (unused : before.count item = 0) :
    Progress groups unit low first first before
      ⟨Function.update before.page group (item * unit),
        Function.update before.count item 1⟩ := by
  constructor
  · intro other _ old
    have different : other ≠ group := by
      rintro rfl
      exact old absent
    exact Function.update_of_ne different _ _
  · intro other _ none some
    have same : other = group := by
      by_contra different
      apply some
      dsimp only
      rw [Function.update_of_ne different]
      exact none
    refine ⟨item, ?_, behind, unused, Function.update_self _ _ _⟩
    rw [same]
    exact Function.update_self _ _ _
  · intro other reached before
    exact absurd before (Nat.not_lt.mpr reached)
  · intro other _ old
    have different : other ≠ item := by
      rintro rfl
      apply old
      refine ⟨group, inGroups, absent, ?_, ?_⟩
      · dsimp only
        rw [Function.update_self]
        exact present
      · exact Function.update_self _ _ _
    exact Function.update_of_ne different _ _

/-- Progress in one range and then in the next. -/
theorem Progress.trans (positive : 0 < unit) {first next last : Nat}
    (one : Progress groups unit low first next before middle)
    (two : Progress groups unit low next last middle after)
    (ordered : first ≤ next) (further : next ≤ last)
    (behind : last ≤ low) :
    Progress groups unit low first last before after := by
  constructor
  · intro group inGroups present
    have same := one.kept group inGroups present
    rw [two.kept group inGroups (by rwa [same]), same]
  · intro group inGroups absent present
    by_cases later : middle.page group = 0
    · obtain ⟨item, place, reached, unused, counted⟩ :=
        two.made group inGroups later present
      refine ⟨item, place, reached, ?_, counted⟩
      have old : ¬ NewPage groups unit before middle item := by
        intro new
        have nowCounted := (one.new_item positive new).2.2
        omega
      rw [← one.others item (by omega) old]
      exact unused
    · obtain ⟨item, place, reached, unused, counted⟩ :=
        one.made group inGroups absent later
      have same := two.kept group inGroups later
      refine ⟨item, same.trans place, reached, unused, ?_⟩
      have old : ¬ NewPage groups unit middle after item := by
        intro new
        have notYet := (two.new_item positive new).2.1
        omega
      rw [two.others item (by omega) old]
      exact counted
  · intro item reached within
    by_cases early : item < next
    · obtain ⟨unused, counted⟩ := one.taken item reached early
      have old : ¬ NewPage groups unit middle after item := by
        intro new
        have place := (two.new_item positive new).1
        omega
      refine ⟨unused, ?_⟩
      rw [two.others item (by omega) old]
      exact counted
    · obtain ⟨unused, counted⟩ := two.taken item (by omega) within
      have old : ¬ NewPage groups unit before middle item := by
        intro new
        have place := (one.new_item positive new).1
        omega
      refine ⟨?_, counted⟩
      rw [← one.others item (by omega) old]
      exact unused
  · intro item outside old
    have oldOne : ¬ NewPage groups unit before middle item := by
      rintro ⟨group, inGroups, absent, present, place⟩
      apply old
      have same := two.kept group inGroups present
      exact ⟨group, inGroups, absent, by rwa [same], same.trans place⟩
    have oldTwo : ¬ NewPage groups unit middle after item := by
      rintro ⟨group, inGroups, absent, present, place⟩
      apply old
      refine ⟨group, inGroups, ?_, present, place⟩
      by_contra early
      exact early ((one.kept group inGroups early).symm.trans absent)
    rw [two.others item (by omega) oldTwo, one.others item (by omega) oldOne]

/-- Progress is about the pages of the groups alone. -/
theorem Progress.congr {first last : Nat} {before' after' : Ledger}
    (progress : Progress groups unit low first last before after)
    (pages : ∀ group < groups, before'.page group = before.page group)
    (counts : before'.count = before.count)
    (pagesAfter : ∀ group < groups, after'.page group = after.page group)
    (countsAfter : after'.count = after.count) :
    Progress groups unit low first last before' after' := by
  obtain ⟨kept, made, taken, others⟩ := progress
  constructor
  · intro group inGroups present
    rw [pages group inGroups] at present ⊢
    rw [pagesAfter group inGroups]
    exact kept group inGroups present
  · intro group inGroups absent present
    rw [pages group inGroups] at absent
    rw [pagesAfter group inGroups] at present ⊢
    rw [counts, countsAfter]
    exact made group inGroups absent present
  · rw [counts, countsAfter]
    exact taken
  · intro item outside old
    rw [counts, countsAfter]
    apply others item outside
    rintro ⟨group, inGroups, absent, present, place⟩
    apply old
    refine ⟨group, inGroups, ?_, ?_, ?_⟩
    · rwa [pages group inGroups]
    · rwa [pagesAfter group inGroups]
    · rwa [pagesAfter group inGroups]

/-- New pages alone are progress in every range that is empty. -/
theorem Progress.nowhere {first : Nat}
    (progress : Progress groups unit low first first before after)
    (other : Nat) :
    Progress groups unit low other other before after := by
  constructor
  · exact progress.kept
  · exact progress.made
  · intro item reached within
    exact absurd within (Nat.not_lt.mpr reached)
  · intro item _ old
    exact progress.others item (by omega) old

/-- What lies between the range and the pages is left. -/
theorem Progress.left (positive : 0 < unit) {first last item : Nat}
    (progress : Progress groups unit low first last before after)
    (behind : last ≤ item) (front : item < low) :
    after.count item = before.count item := by
  apply progress.others item (by omega)
  intro new
  have reached := (progress.new_item positive new).1
  omega

/-- What is in use stays counted. -/
theorem Progress.used (positive : 0 < unit) {first last item : Nat}
    (progress : Progress groups unit low first last before after)
    (used : before.count item ≠ 0) : after.count item = before.count item := by
  apply progress.others
  · rintro ⟨reached, within⟩
    exact used (progress.taken item reached within).1
  · intro new
    exact used (progress.new_item positive new).2.1

/-- Progress keeps every page counted. -/
theorem Progress.accounted (positive : 0 < unit) {first last : Nat}
    (progress : Progress groups unit low first last before after)
    (accounted : Accounted groups unit before) :
    Accounted groups unit after := by
  constructor
  intro group inGroups present
  by_cases absent : before.page group = 0
  · obtain ⟨item, place, -, -, counted⟩ :=
      progress.made group inGroups absent present
    rw [place, Nat.mul_div_cancel _ positive, counted]
    decide
  · have used := accounted.counted group inGroups absent
    rw [progress.kept group inGroups absent, progress.used positive used]
    exact used

end Ledger

end Kemu.Lib.PagedLedger
