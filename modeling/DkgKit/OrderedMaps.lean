import Mathlib.Data.List.Nodup
import Mathlib.Data.List.Perm.Basic
import Std.Data.TreeMap.Lemmas

/-! Maps ordered by key: the values in the order of the keys, and insertions in a row. -/

namespace OrderedMaps

variable {κ ν α : Type} {cmp : κ → κ → Ordering} {key : α → κ} {value : α → ν}

def values (m : Std.TreeMap κ ν cmp) : List ν := m.toList.map Prod.snd

def insertAll (key : α → κ) (value : α → ν) (l : List α) (m : Std.TreeMap κ ν cmp) :
    Std.TreeMap κ ν cmp := l.foldl (fun m a => m.insert (key a) (value a)) m

theorem insertAll_append (l : List α) (a : α) (m : Std.TreeMap κ ν cmp) :
    insertAll key value (l ++ [a]) m = (insertAll key value l m).insert (key a) (value a) := by
  rw [insertAll, List.foldl_append]
  rfl

variable [Std.TransCmp cmp] [Std.LawfulEqCmp cmp]

theorem getElem?_insertAll_of_notMem (value : α → ν) {l : List α} {k : κ} (h : k ∉ l.map key)
    (m : Std.TreeMap κ ν cmp) : (insertAll key value l m)[k]? = m[k]? := by
  induction l generalizing m with
  | nil => rfl
  | cons a rest ih =>
    rw [List.map_cons, List.mem_cons, not_or] at h
    have hne : cmp (key a) k ≠ .eq := fun heq => h.1 (Std.LawfulEqCmp.eq_of_compare heq).symm
    have hrest := ih h.2 (m.insert (key a) (value a))
    rw [Std.TreeMap.getElem?_insert, if_neg hne] at hrest
    exact hrest

theorem getElem?_insertAll {l : List α} (hnd : (l.map key).Nodup) {a : α} (ha : a ∈ l)
    (m : Std.TreeMap κ ν cmp) : (insertAll key value l m)[key a]? = some (value a) := by
  induction l generalizing m with
  | nil => cases ha
  | cons b rest ih =>
    rw [List.map_cons, List.nodup_cons] at hnd
    rcases List.mem_cons.mp ha with rfl | ha
    · have hrest := getElem?_insertAll_of_notMem value hnd.1 (m.insert (key a) (value a))
      rw [Std.TreeMap.getElem?_insert, if_pos Std.ReflCmp.compare_self] at hrest
      exact hrest
    · exact ih hnd.2 ha (m.insert (key b) (value b))

/-- If the insertions reach every key, the values are exactly those inserted. -/
theorem values_insertAll_perm {l : List α} (hnd : (l.map key).Nodup) {m : Std.TreeMap κ ν cmp}
    (hkeys : ∀ k v, m[k]? = some v → k ∈ l.map key) :
    (values (insertAll key value l m)).Perm (l.map value) := by
  have hpairs : ((insertAll key value l m).toList).Perm (l.map fun a => (key a, value a)) := by
    have hdistinct : ((insertAll key value l m).toList).Nodup := by
      refine Std.TreeMap.distinct_keys_toList.imp fun {x y} hne heq => hne ?_
      rw [heq]
      exact Std.ReflCmp.compare_self
    have hinserted : (l.map fun a => (key a, value a)).Nodup := by
      have hfst : (l.map fun a => (key a, value a)).map Prod.fst = l.map key := List.map_map
      exact List.Nodup.of_map Prod.fst (hfst ▸ hnd)
    rw [List.perm_ext_iff_of_nodup hdistinct hinserted]
    rintro ⟨k, v⟩
    rw [Std.TreeMap.mem_toList_iff_getElem?_eq_some, List.mem_map]
    by_cases hk : k ∈ l.map key
    · obtain ⟨a, ha, rfl⟩ := List.mem_map.mp hk
      rw [getElem?_insertAll hnd ha]
      constructor
      · intro h
        exact ⟨a, ha, by rw [Option.some.inj h]⟩
      · rintro ⟨b, hb, hpair⟩
        obtain rfl := List.inj_on_of_nodup_map hnd hb ha (congrArg Prod.fst hpair)
        exact congrArg some (congrArg Prod.snd hpair)
    · rw [getElem?_insertAll_of_notMem value hk]
      constructor
      · intro h
        exact absurd (hkeys k v h) hk
      · rintro ⟨a, ha, hpair⟩
        exact absurd (List.mem_map.mpr ⟨a, ha, congrArg Prod.fst hpair⟩) hk
  have hvalues := hpairs.map Prod.snd
  rw [List.map_map] at hvalues
  exact hvalues

end OrderedMaps
