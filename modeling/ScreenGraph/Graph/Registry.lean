/-!
# ScreenGraph.Graph.Registry

Insert-only dictionaries: the first registration under a key wins, and nothing is ever replaced or
removed.

* `find?_register`: what a registration does to every look-up.
* `find?_register_of_find?`: what was found once is found for ever.
* `find?_eq_some_iff`: a look-up finds the entries, if no key is there twice.
-/

namespace ScreenGraph
namespace Graph

structure Registry (κ ν : Type) where
  entries : List (κ × ν)
deriving DecidableEq

namespace Registry

variable {κ ν : Type} [DecidableEq κ]

def empty : Registry κ ν :=
  ⟨[]⟩

def find? (r : Registry κ ν) (k : κ) : Option ν :=
  r.entries.lookup k

/-- Does nothing when the key is taken. -/
def register (r : Registry κ ν) (k : κ) (v : ν) : Registry κ ν :=
  match r.find? k with
  | some _ => r
  | none => ⟨(k, v) :: r.entries⟩

def keys (r : Registry κ ν) : List κ :=
  r.entries.map Prod.fst

def values (r : Registry κ ν) : List ν :=
  r.entries.map Prod.snd

def size (r : Registry κ ν) : Nat :=
  r.entries.length

theorem find?_register (r : Registry κ ν) (k : κ) (v : ν) (k' : κ) :
    (r.register k v).find? k' = if k' = k then some ((r.find? k).getD v) else r.find? k' := by
  unfold register
  split
  · next w h =>
    split
    · next hk => subst hk; simp [h]
    · rfl
  · next h =>
    simp only [find?, List.lookup_cons] at h ⊢
    by_cases hk : k' = k
    · subst hk; simp [h]
    · have : (k' == k) = false := by simpa using hk
      simp [this, hk]

theorem find?_register_self (r : Registry κ ν) (k : κ) (v : ν) :
    (r.register k v).find? k = some ((r.find? k).getD v) := by
  simp [find?_register]

theorem find?_register_of_find? {r : Registry κ ν} {k : κ} {v : ν} {k' : κ} {v' : ν}
    (h : r.find? k' = some v') : (r.register k v).find? k' = some v' := by
  rw [find?_register]
  split
  · next hk => subst hk; simp [h]
  · exact h

/-- What is found after a registration was there before or is what was registered. -/
theorem find?_register_cases {r : Registry κ ν} {k : κ} {v : ν} {k' : κ} {v' : ν}
    (h : (r.register k v).find? k' = some v') : r.find? k' = some v' ∨ k' = k ∧ v' = v := by
  rw [find?_register] at h
  split at h
  · next hk =>
    subst hk
    cases hold : r.find? k' with
    | some w =>
      rw [hold] at h
      exact .inl h
    | none =>
      rw [hold] at h
      exact .inr ⟨rfl, (Option.some.inj h).symm⟩
  · exact .inl h

theorem find?_empty (k : κ) : (empty : Registry κ ν).find? k = none :=
  rfl

theorem mem_keys_iff {r : Registry κ ν} {k : κ} : k ∈ r.keys ↔ (r.find? k).isSome := by
  obtain ⟨entries⟩ := r
  simp only [keys, find?]
  induction entries with
  | nil => simp
  | cons e es ih =>
    obtain ⟨a, b⟩ := e
    by_cases h : k = a
    · subst h; simp
    · have hb : (k == a) = false := by simpa using h
      simp [List.lookup_cons, hb, h, ih]

theorem keys_register_nodup {r : Registry κ ν} (k : κ) (v : ν) (h : r.keys.Nodup) :
    (r.register k v).keys.Nodup := by
  unfold register
  split
  · exact h
  · next hk =>
    refine List.nodup_cons.2 ⟨fun hm => ?_, h⟩
    have := mem_keys_iff.1 hm
    simp [hk] at this

/-- Each key has one value. -/
theorem find?_eq_some_iff {r : Registry κ ν} (hkeys : r.keys.Nodup) {k : κ} {v : ν} :
    r.find? k = some v ↔ (k, v) ∈ r.entries := by
  obtain ⟨entries⟩ := r
  simp only [find?, keys] at hkeys ⊢
  induction entries with
  | nil => simp
  | cons e es ih =>
    obtain ⟨k', v'⟩ := e
    obtain ⟨hnew, hrest⟩ := List.nodup_cons.1 hkeys
    rw [List.lookup_cons]
    by_cases hk : k = k'
    · subst hk
      have hno : (k, v) ∉ es := by
        intro hmem
        exact hnew (List.mem_map.2 ⟨(k, v), hmem, rfl⟩)
      simp [hno, eq_comm]
    · have hb : (k == k') = false := by simpa using hk
      rw [hb]
      simp [hk, ih hrest]

end Registry
end Graph
end ScreenGraph
