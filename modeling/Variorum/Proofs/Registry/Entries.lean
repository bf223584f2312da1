import Mathlib.Data.List.Nodup
import Variorum.Registry.Basic

/-!
# Entries under keys

An entry that is put under a key is the one that is found there, and no other key is concerned. As no key
stands twice, entries can be found in any order.
-/

namespace Variorum.Entries

variable {α : Type} {key k : String} {a b : α} {e : String × α} {entries entries' : Entries α}

@[simp] theorem keys_cons : keys ((key, a) :: entries) = key :: keys entries := rfl

theorem mem_insert (h : e ∈ insert key a entries) : e = (key, a) ∨ e ∈ entries := by
  induction entries with
  | nil => exact .inl (List.mem_singleton.1 h)
  | cons first rest ih =>
      obtain ⟨k, b⟩ := first
      rw [insert] at h
      split at h
      · exact (List.mem_cons.1 h).imp_right (List.mem_cons_of_mem _)
      · rcases List.mem_cons.1 h with rfl | h
        · exact .inr List.mem_cons_self
        · exact (ih h).imp_right (List.mem_cons_of_mem _)

theorem get?_nil : get? k ([] : Entries α) = none := rfl

theorem get?_cons : get? k ((key, a) :: entries) = if key = k then some a else get? k entries := by
  unfold get?
  rw [List.find?_cons]
  split <;> simp_all

theorem mem_of_get? (h : get? k entries = some a) : (k, a) ∈ entries := by
  obtain ⟨e, he, rfl⟩ := Option.map_eq_some_iff.1 h
  have hkey : e.1 = k := by simpa using List.find?_some he
  exact hkey ▸ List.mem_of_find?_eq_some he

theorem mem_keys (h : (k, a) ∈ entries) : k ∈ keys entries :=
  List.mem_map_of_mem h

theorem isSome_get? : (get? k entries).isSome = true ↔ k ∈ keys entries := by
  rw [get?, Option.isSome_map, List.find?_isSome, keys, List.mem_map]
  simp only [decide_eq_true_eq]

theorem get?_insert : get? k (insert key a entries) = if key = k then some a else get? k entries := by
  induction entries with
  | nil => rw [insert, get?_cons, get?_nil]
  | cons first rest ih =>
      obtain ⟨k', b⟩ := first
      rw [insert]
      split
      · rename_i hkey
        rw [get?_cons, get?_cons, hkey]
        split <;> rfl
      · rename_i hkey
        rw [get?_cons, get?_cons, ih]
        split
        · rename_i hk
          rw [if_neg fun h => hkey (hk.trans h.symm)]
        · rfl

theorem keys_insert : keys (insert key a entries) =
    if key ∈ keys entries then keys entries else keys entries ++ [key] := by
  induction entries with
  | nil => rfl
  | cons first rest ih =>
      obtain ⟨k', b⟩ := first
      rw [insert]
      split
      · rename_i hkey
        simp [hkey]
      · rename_i hkey
        by_cases hmem : key ∈ keys rest <;> simp [ih, hmem, Ne.symm hkey]

theorem nodup_insert (h : (keys entries).Nodup) : (keys (insert key a entries)).Nodup := by
  rw [keys_insert]
  split
  · exact h
  · rename_i hkey
    rw [← List.concat_eq_append]
    exact h.concat hkey

theorem get?_eq_some_iff (h : (keys entries).Nodup) : get? k entries = some a ↔ (k, a) ∈ entries := by
  refine ⟨mem_of_get?, fun ha => ?_⟩
  obtain ⟨b, hb⟩ := Option.isSome_iff_exists.1 (isSome_get?.2 (mem_keys ha))
  have heq := List.inj_on_of_nodup_map h (mem_of_get? hb) ha rfl
  cases heq
  exact hb

/-- Where no key stands twice, it does not matter in which order the entries stand. -/
theorem get?_perm (h : (keys entries).Nodup) (hperm : entries.Perm entries') :
    get? k entries = get? k entries' := by
  have h' : (keys entries').Nodup := (hperm.map _).nodup_iff.1 h
  ext a
  rw [get?_eq_some_iff h, get?_eq_some_iff h', hperm.mem_iff]

end Variorum.Entries
