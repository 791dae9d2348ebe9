import Mathlib.Data.List.Induction
import Mathlib.Data.List.Nodup
import Mathlib.Logic.Function.Basic

/-!
Grouping by a key, in one pass.

Elements are added one after the other to a map from keys to groups, and a list
beside the map remembers in which order the keys came. After a whole list the
order is that of the first occurrences, a group is what the list has of its key,
in the order of the list, and the groups together are the list up to order.
-/

/-- A map of groups with the order of its keys. -/
structure Grouping (κ α : Type) where
  groups : κ → Option (List α)
  order : List κ

namespace Grouping

variable {κ α : Type} [DecidableEq κ] {key : α → κ}

def empty : Grouping κ α := ⟨fun _ => none, []⟩

/-- Put one more element at the end of its group. -/
def add (key : α → κ) (g : Grouping κ α) (a : α) : Grouping κ α where
  groups := Function.update g.groups (key a) (some ((g.groups (key a)).getD [] ++ [a]))
  order := if (g.groups (key a)).isSome then g.order else g.order ++ [key a]

def ofList (key : α → κ) (as : List α) : Grouping κ α := as.foldl (add key) empty

theorem ofList_append_singleton (as : List α) (a : α) :
    ofList key (as ++ [a]) = (ofList key as).add key a := by
  simp [ofList]

/-- The elements of a list with a given key. -/
def fiber (key : α → κ) (as : List α) (k : κ) : List α := as.filter fun a => key a = k

theorem mem_fiber {as : List α} {a : α} {k : κ} : a ∈ fiber key as k ↔ a ∈ as ∧ key a = k := by
  simp [fiber]

theorem fiber_append_singleton (as : List α) (a : α) (k : κ) :
    fiber key (as ++ [a]) k = if k = key a then fiber key as k ++ [a] else fiber key as k := by
  simp only [fiber, List.filter_append]
  split
  · subst_vars
    simp
  · rename_i hk
    simp [Ne.symm hk]

theorem fiber_eq_nil_iff {as : List α} {k : κ} : fiber key as k = [] ↔ k ∉ as.map key := by
  simp [fiber]

theorem groups_ofList (as : List α) (k : κ) :
    (ofList key as).groups k = if k ∈ as.map key then some (fiber key as k) else none := by
  induction as using List.reverseRecOn generalizing k with
  | nil => simp [ofList, empty]
  | append_singleton as a ih =>
      have hgroup : ((ofList key as).groups (key a)).getD [] = fiber key as (key a) := by
        rw [ih]
        split
        · rfl
        · exact (fiber_eq_nil_iff.mpr ‹_›).symm
      rw [ofList_append_singleton, add]
      dsimp only
      rw [Function.update_apply, hgroup, fiber_append_singleton]
      by_cases hk : k = key a
      · simp [hk]
      · simp [hk, ih]

theorem isSome_groups_ofList (as : List α) (k : κ) :
    ((ofList key as).groups k).isSome = decide (k ∈ as.map key) := by
  rw [groups_ofList]
  split <;> simp_all

theorem removeAll_singleton (k : κ) (ks : List κ) :
    [k].removeAll ks = if k ∈ ks then [] else [k] := by
  by_cases h : k ∈ ks <;> simp [List.removeAll, h]

/-- The keys in the order in which they first occur. -/
theorem order_ofList (as : List α) : (ofList key as).order = (as.map key).eraseDups := by
  induction as using List.reverseRecOn with
  | nil => simp [ofList, empty]
  | append_singleton as a ih =>
      rw [ofList_append_singleton, List.map_append, List.eraseDups_append, add]
      dsimp only
      rw [isSome_groups_ofList, ih]
      rw [List.map_singleton, removeAll_singleton]
      by_cases hseen : key a ∈ as.map key
      · simp only [hseen, decide_true, if_true, List.eraseDups_nil, List.append_nil]
      · simp only [hseen, decide_false, Bool.false_eq_true, if_false, List.eraseDups_cons,
          List.filter_nil, List.eraseDups_nil]

theorem mem_order_ofList {as : List α} {k : κ} :
    k ∈ (ofList key as).order ↔ k ∈ as.map key := by
  rw [order_ofList, List.mem_eraseDups]

theorem nodup_order_ofList (as : List α) : (ofList key as).order.Nodup := by
  induction as using List.reverseRecOn with
  | nil => exact List.nodup_nil
  | append_singleton as a ih =>
      rw [ofList_append_singleton, add]
      dsimp only
      rw [isSome_groups_ofList]
      split
      · exact ih
      · rename_i hnew
        have hmem : key a ∉ (ofList key as).order := by
          rw [mem_order_ofList]
          exact of_decide_eq_false (Bool.not_eq_true _ ▸ hnew)
        exact List.nodup_append'.mpr ⟨ih, List.nodup_singleton _, by simpa using hmem⟩

theorem getD_groups (as : List α) :
    ∀ k ∈ (ofList key as).order, ((ofList key as).groups k).getD [] = fiber key as k := by
  intro k hk
  rw [groups_ofList, if_pos (mem_order_ofList.mp hk), Option.getD_some]

theorem fiber_ne_nil {as : List α} {k : κ} (h : k ∈ (ofList key as).order) :
    fiber key as k ≠ [] :=
  fun hnil => fiber_eq_nil_iff.mp hnil (mem_order_ofList.mp h)

/-- The groups of distinct keys are together what the list has of these keys. -/
theorem flatMap_fiber_perm (as : List α) {ks : List κ} (h : ks.Nodup) :
    (ks.flatMap (fiber key as)).Perm (as.filter fun a => key a ∈ ks) := by
  induction ks with
  | nil => simp
  | cons k ks ih =>
      obtain ⟨hk, hks⟩ := List.nodup_cons.mp h
      have hsplit := List.filter_append_perm (fun a => key a = k)
        (as.filter fun a => key a ∈ k :: ks)
      rw [List.filter_filter, List.filter_filter] at hsplit
      refine List.Perm.trans ?_ hsplit
      rw [List.flatMap_cons]
      refine List.Perm.append ?_ ((ih hks).trans ?_)
      · refine List.Perm.of_eq (List.filter_congr fun a _ => ?_)
        by_cases ha : key a = k <;> simp [ha]
      · refine List.Perm.of_eq (List.filter_congr fun a _ => ?_)
        by_cases ha : key a = k
        · simp [ha, hk]
        · simp [ha]

/-- Nothing is lost and nothing is doubled. -/
theorem flatMap_order_perm (as : List α) :
    ((ofList key as).order.flatMap (fiber key as)).Perm as := by
  refine (flatMap_fiber_perm as (nodup_order_ofList as)).trans (List.Perm.of_eq ?_)
  refine List.filter_eq_self.mpr fun a ha => ?_
  exact decide_eq_true (mem_order_ofList.mpr (List.mem_map_of_mem ha))

end Grouping
