import ScreenGraph.Files.Tree

/-!
# ScreenGraph.Proofs.Files.Revised

A tree in which some files have another content, and all else is as it was.

Every path still leads where it led, and every directory has the names that it had. So a revision
shows only to those who read the files.

* `node?_revise`: what becomes of every position.
* `follow_revise`, `list_revise`: what a revision leaves alone.
* `find_reviseAt_of_leads`, `find_reviseAt_of_apart`: the files at some paths, and those elsewhere.
-/

namespace ScreenGraph
namespace Files

/-- The node with another content, if it is a file. -/
def Node.revise (f : List UInt8 → List UInt8) : Node → Node
  | .file content => .file (f content)
  | .directory => .directory

namespace Tree

/-- The tree with a new content for every file. -/
def revise (f : Position → List UInt8 → List UInt8) (t : Tree) : Tree :=
  { t with nodes := t.nodes.map fun (pos, n) => (pos, n.revise (f pos)) }

section

variable (f : Position → List UInt8 → List UInt8) (t : Tree)

theorem node?_revise (pos : Position) :
    (t.revise f).node? pos = (t.node? pos).map (·.revise (f pos)) := by
  unfold node? revise
  split
  · rfl
  · induction t.nodes with
    | nil => rfl
    | cons e nodes ih =>
      obtain ⟨q, n⟩ := e
      simp only [List.map_cons, List.lookup_cons]
      cases hq : pos == q with
      | true =>
        have hsame : pos = q := by simpa using hq
        rw [hsame]
        rfl
      | false => exact ih

theorem walk_revise (pos : Position) (names : List String) :
    (t.revise f).walk pos names = t.walk pos names := by
  induction names generalizing pos with
  | nil => rfl
  | cons name names ih =>
    simp only [walk, node?_revise, ih]
    cases t.node? pos with
    | none => rfl
    | some n => cases n <;> rfl

theorem follow_revise (p : Path) (names : List String) :
    (t.revise f).follow p names = t.follow p names := by
  have hstart : (t.revise f).start p = t.start p := rfl
  simp only [follow, walk_revise, hstart]

theorem list_revise (p : Path) : (t.revise f).list p = t.list p := by
  simp only [list, follow_revise, node?_revise]
  cases t.follow p p.parts with
  | error e => rfl
  | ok pos =>
    dsimp only
    cases t.node? pos with
    | none => rfl
    | some n =>
      cases n with
      | file content => rfl
      | directory =>
        simp only [Option.map_some, Node.revise, revise, List.filterMap_map]
        rfl

theorem find_revise (p : Path) :
    (t.revise f).find p =
      match t.follow p p.parts with
      | .error e => .error e
      | .ok pos => (t.find p).map (·.revise (f pos)) := by
  simp only [find, follow_revise, node?_revise]
  cases t.follow p p.parts with
  | error e => rfl
  | ok pos =>
    dsimp only
    cases t.node? pos <;> rfl

end

/-! ## At some paths -/

section

/-- The position that a path leads to, if it can be followed. -/
def leads? (t : Tree) (p : Path) : Option Position :=
  (t.follow p p.parts).toOption

/-- The tree with a new content for the files that some paths lead to. -/
def reviseAt (t : Tree) (ps : List Path) (f : List UInt8 → List UInt8) : Tree :=
  t.revise fun pos content => if ps.any (t.leads? · = some pos) then f content else content

variable {f : List UInt8 → List UInt8} {t : Tree} {ps : List Path} {p : Path}

theorem list_reviseAt (t : Tree) (ps : List Path) (f : List UInt8 → List UInt8) (p : Path) :
    (t.reviseAt ps f).list p = t.list p :=
  list_revise _ t p

/-- Paths to one position find the same there. -/
theorem find_of_leads {q : Path} {pos : Position} (hp : t.leads? p = some pos)
    (hq : t.leads? q = some pos) : t.find p = t.find q := by
  unfold leads? at hp hq
  unfold find
  cases hfollow : t.follow p p.parts with
  | error e => rw [hfollow] at hp; cases hp
  | ok r =>
    cases hfollow' : t.follow q q.parts with
    | error e => rw [hfollow'] at hq; cases hq
    | ok r' =>
      rw [hfollow] at hp
      rw [hfollow'] at hq
      cases hp
      cases hq
      rfl

theorem leads_of_find {n : Node} (h : t.find p = .ok n) : ∃ pos, t.leads? p = some pos := by
  unfold find at h
  unfold leads?
  cases hfollow : t.follow p p.parts with
  | error e => rw [hfollow] at h; cases h
  | ok pos => exact ⟨pos, rfl⟩

theorem find_reviseAt_of_leads {q : Path} (hq : q ∈ ps) (h : t.leads? q = t.leads? p) :
    (t.reviseAt ps f).find p = (t.find p).map (·.revise f) := by
  rw [reviseAt, find_revise]
  cases hfollow : t.follow p p.parts with
  | error e => simp only [find, hfollow]; rfl
  | ok pos =>
    have hleads : t.leads? q = some pos := by rw [h, leads?, hfollow]; rfl
    have hany : ps.any (t.leads? · = some pos) = true :=
      List.any_eq_true.2 ⟨q, hq, by simpa using hleads⟩
    simp only [hany, if_true]

/-- A path that leads elsewhere finds what it found. -/
theorem find_reviseAt_of_apart (h : ∀ q ∈ ps, t.leads? q ≠ t.leads? p) :
    (t.reviseAt ps f).find p = t.find p := by
  rw [reviseAt, find_revise]
  cases hfollow : t.follow p p.parts with
  | error e => simp only [find, hfollow]
  | ok pos =>
    have hleads : t.leads? p = some pos := by rw [leads?, hfollow]; rfl
    have hany : ps.any (t.leads? · = some pos) = false := by
      rw [List.any_eq_false]
      intro q hq
      simpa [hleads] using h q hq
    simp only [hany]
    cases t.find p with
    | error e => rfl
    | ok n => cases n <;> rfl

end

end Tree
end Files
end ScreenGraph
