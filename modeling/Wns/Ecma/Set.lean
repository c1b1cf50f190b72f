import Mathlib.Data.List.Dedup
import Mathlib.Data.List.Perm.Subperm

/-!
# Sets of a list

`new Set(items)` keeps the items in the order of their first occurrence; `[...new Set(items)]`
and its `size` are `List.eraseDups` and its length.

* `nodup_eraseDups`, `eraseDups_eq_self`: what is left has no repetition, and a list without
  repetition is left as it is.
* `length_eraseDups_eq_iff`: `new Set(items).size === items.length` iff nothing is repeated.
-/

namespace Wns.Ecma

variable {α : Type*} [BEq α] [LawfulBEq α] {l : List α}

theorem nodup_eraseDups (l : List α) : l.eraseDups.Nodup := by
  match l with
  | [] => exact List.nodup_nil
  | a :: l =>
    rw [List.eraseDups_cons, List.nodup_cons, List.mem_eraseDups, List.mem_filter]
    exact ⟨by simp, nodup_eraseDups _⟩
termination_by l.length
decreasing_by exact Nat.lt_succ_of_le (List.length_filter_le _ _)

theorem eraseDups_eq_self (h : l.Nodup) : l.eraseDups = l := by
  induction l with
  | nil => rfl
  | cons a l ih =>
    obtain ⟨ha, hl⟩ := List.nodup_cons.mp h
    have hfilter : l.filter (fun b => !b == a) = l :=
      List.filter_eq_self.mpr fun b hb => by simpa using fun h : b = a => ha (h ▸ hb)
    rw [List.eraseDups_cons, hfilter, ih hl]

theorem length_eraseDups_eq_iff : l.eraseDups.length = l.length ↔ l.Nodup := by
  classical
  constructor
  · intro h
    have hperm : l.eraseDups.Perm l.dedup :=
      (List.perm_ext_iff_of_nodup (nodup_eraseDups l) (List.nodup_dedup l)).mpr fun a => by
        rw [List.mem_eraseDups, List.mem_dedup]
    have hdedup : l.dedup = l :=
      (List.dedup_sublist l).eq_of_length (hperm.length_eq.symm.trans h)
    exact hdedup ▸ List.nodup_dedup l
  · intro h
    rw [eraseDups_eq_self h]

end Wns.Ecma
