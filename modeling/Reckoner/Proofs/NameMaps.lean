import Mathlib.Data.List.Nodup
import Reckoner.NameMap

/-!
# NameMap — maps that hold the same

A map is determined by what it holds under every name (`NameMap.ext_get?`).  So insertions under
different names commute, and pairs with different names may be given in any order.
-/

namespace Reckoner.NameMap

variable {α : Type}

theorem nodup_of_ascending {m : NameMap α} (h : m.Ascending) : m.Nodup := by
  have hnames : m.names.Nodup := by
    refine List.Pairwise.imp ?_ h
    rintro a b hab rfl
    exact String.lt_irrefl a hab
  exact .of_map _ hnames

/-- **Maps that hold the same under every name are the same.** -/
theorem ext_get? {m m' : NameMap α} (h : m.Ascending) (h' : m'.Ascending)
    (hget : ∀ name, m.get? name = m'.get? name) : m = m' := by
  have hperm : m.Perm m' := by
    refine (List.perm_ext_iff_of_nodup (nodup_of_ascending h) (nodup_of_ascending h')).mpr ?_
    rintro ⟨name, value⟩
    rw [← get?_eq_some_iff h, ← get?_eq_some_iff h', hget]
  refine hperm.eq_of_pairwise ?_ (List.pairwise_map.mp h) (List.pairwise_map.mp h')
  exact fun a b _ _ hab hba => absurd hba (String.lt_asymm hab)

/-- Insertions under different names may be made in either order. -/
theorem insert_comm {name other : String} (hne : name ≠ other) (value held : α) {m : NameMap α}
    (h : m.Ascending) :
    (m.insert name value).insert other held = (m.insert other held).insert name value := by
  refine ext_get? (ascending_insert (ascending_insert h)) (ascending_insert (ascending_insert h))
    fun sought => ?_
  rw [get?_insert (ascending_insert h), get?_insert h, get?_insert (ascending_insert h),
    get?_insert h]
  by_cases hname : sought = name
  · subst hname
    rw [if_neg hne, if_pos rfl, if_pos rfl]
  · rw [if_neg hname, if_neg hname]

theorem mem_names_iff {name : String} {m : NameMap α} :
    name ∈ m.names ↔ ∃ value, m.get? name = some value := by
  rw [← Option.ne_none_iff_exists', ne_eq, get?_eq_none_iff, not_not]

/-- What stands in a map after an insertion was inserted or stood in it before. -/
theorem mem_insert {name : String} {value : α} {m : NameMap α} {entry : String × α}
    (h : entry ∈ m.insert name value) : entry = (name, value) ∨ entry ∈ m := by
  induction m with
  | nil => exact .inl (List.mem_singleton.mp h)
  | cons first rest ih =>
      obtain ⟨other, held⟩ := first
      rw [insert] at h
      split at h
      · exact List.mem_cons.mp h
      · split at h
        · exact (List.mem_cons.mp h).imp_right (List.mem_cons_of_mem _)
        · rcases List.mem_cons.mp h with rfl | h
          · exact .inr List.mem_cons_self
          · exact (ih h).imp_right (List.mem_cons_of_mem _)

/-- Pairs with different names may be given in any order. -/
theorem ofList_eq_of_perm {pairs pairs' : List (String × α)} (h : pairs.Perm pairs')
    (hnodup : (pairs.map (·.1)).Nodup) : ofList pairs = ofList pairs' := by
  refine ext_get? (ascending_ofList pairs) (ascending_ofList pairs') fun name => ?_
  have hnodup' : (pairs'.map (·.1)).Nodup := (h.map _).nodup_iff.mp hnodup
  refine Option.ext fun value => ?_
  rw [get?_eq_some_iff (ascending_ofList pairs), get?_eq_some_iff (ascending_ofList pairs'),
    mem_ofList_iff hnodup, mem_ofList_iff hnodup', h.mem_iff]

theorem ofList_perm {pairs : List (String × α)} (h : (pairs.map (·.1)).Nodup) :
    (ofList pairs).Perm pairs :=
  (List.perm_ext_iff_of_nodup (nodup_of_ascending (ascending_ofList pairs)) (.of_map _ h)).mpr
    fun _ => mem_ofList_iff h

end Reckoner.NameMap
