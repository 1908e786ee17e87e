import ScreenGraph.Files.Tree
import ScreenGraph.Proofs.Text.Plain

/-!
# ScreenGraph.Proofs.Files.Below

Names below a directory: where joined paths lead, and what writing there does.

* `parts_join`: a name that is joined to a path is one more part.
* `follow_join`: it leads one step further than the path.
* `Extends`: a tree that has all that another one has, so that every path still leads where it led.
* `createAll_below`: a directory is made in an empty one.
-/

namespace ScreenGraph

open Text

namespace Files

/-- A name of a file or directory, and not a way to go elsewhere. -/
structure IsName (name : String) : Prop where
  ne_empty : name ≠ ""
  ne_here : name ≠ "."
  ne_above : name ≠ ".."
  slash : '/' ∉ name.toList
  nul : '\x00' ∉ name.toList
  size : name.utf8ByteSize ≤ 255

namespace Path

/-- Joining puts the name behind a slash. -/
theorem join_name (p : Path) {name : String} (h : IsName name) (hp : p.text ≠ "") :
    ∃ front, (p.join name).text = front ++ "/" ++ name ∧
      (p.text = front ∨ p.text = front ++ "/") := by
  have hhead : name.toList.head? ≠ some '/' := by
    intro he
    exact h.slash (List.mem_of_mem_head? he)
  unfold join
  rw [if_neg hhead]
  by_cases hend : p.text.toList.getLast? = some '/'
  · rw [if_pos (.inr hend)]
    obtain ⟨front, hfront⟩ := List.getLast?_eq_some_iff.1 hend
    have htext : p.text = String.ofList front ++ "/" := by
      apply String.toList_inj.1
      simp [hfront]
    exact ⟨String.ofList front, by rw [← htext], .inr htext⟩
  · have hnot : ¬ (p.text = "" ∨ p.text.toList.getLast? = some '/') := by
      rintro (he | he)
      · exact hp he
      · exact hend he
    rw [if_neg hnot]
    exact ⟨p.text, rfl, .inl rfl⟩

theorem join_ne_empty (p : Path) {name : String} (h : IsName name) (hp : p.text ≠ "") :
    (p.join name).text ≠ "" := by
  obtain ⟨front, hjoin, -⟩ := p.join_name h hp
  intro he
  have hchars := congrArg String.toList (hjoin.symm.trans he)
  simp at hchars

/-- What stands before the slash is no longer than the path. -/
theorem size_front (p : Path) {front : String} (h : p.text = front ∨ p.text = front ++ "/") :
    front.utf8ByteSize ≤ p.text.utf8ByteSize := by
  rcases h with htext | htext
  · exact Nat.le_of_eq (congrArg String.utf8ByteSize htext.symm)
  · rw [htext, String.utf8ByteSize_append]
    exact Nat.le_add_right _ _

theorem size_join (p : Path) {name : String} (h : IsName name) (hp : p.text ≠ "") :
    (p.join name).text.utf8ByteSize ≤ p.text.utf8ByteSize + 1 + name.utf8ByteSize := by
  obtain ⟨front, hjoin, hfront⟩ := p.join_name h hp
  have hslash : "/".utf8ByteSize = 1 := by decide +kernel
  have hsize := p.size_front hfront
  rw [hjoin, String.utf8ByteSize_append, String.utf8ByteSize_append, hslash]
  omega

/-- A name that is joined is one more part. -/
theorem parts_join {p : Path} {name front : String} (h : IsName name)
    (hjoin : (p.join name).text = front ++ "/" ++ name) :
    (p.join name).parts = splitAll front '/' ++ [name] := by
  have hslash : String.singleton '/' = "/" := rfl
  rw [parts, hjoin, ← hslash, splitAll_append '/' front name h.slash]

end Path

namespace Tree

/-! ## Walking on -/

theorem walk_append (t : Tree) (pos : Position) (names more : List String) :
    t.walk pos (names ++ more) = (t.walk pos names).bind fun pos => t.walk pos more := by
  induction names generalizing pos with
  | nil => rfl
  | cons name names ih =>
    simp only [List.cons_append, walk, ih]
    split
    · rfl
    · rfl
    · split
      · rfl
      split
      · rfl
      split
      · rfl
      · rfl

theorem walk_name {t : Tree} {pos : Position} {name : String} (h : IsName name)
    (hdir : t.node? pos = some .directory) : t.walk pos [name] = .ok (pos ++ [name]) := by
  have hhere : ¬ (name = "" ∨ name = ".") := by
    rintro (he | he)
    · exact h.ne_empty he
    · exact h.ne_here he
  have hsize : ¬ name.utf8ByteSize > 255 := Nat.not_lt.2 h.size
  simp only [walk, hdir, hhere, if_false, h.ne_above, hsize]

/-- A slash at the end of a path leads nowhere else. -/
theorem walk_empty {t : Tree} {pos pos' : Position} (h : t.walk pos [""] = .ok pos') :
    pos' = pos := by
  simp only [walk] at h
  split at h
  · cases h
  · cases h
  · cases h
    rfl

theorem pathError?_eq_none {p : Path} : pathError? p = none ↔
    '\x00' ∉ p.text.toList ∧ p.text ≠ "" ∧ p.text.utf8ByteSize ≤ 4095 := by
  unfold pathError?
  split
  · simp_all
  split
  · simp_all
  split
  · simp_all
  · simp_all

theorem pathError?_of_follow {t : Tree} {p : Path} {names : List String} {pos : Position}
    (h : t.follow p names = .ok pos) : pathError? p = none := by
  unfold follow at h
  split at h
  · cases h
  · assumption

theorem text_ne_empty_of_follow {t : Tree} {p : Path} {names : List String} {pos : Position}
    (h : t.follow p names = .ok pos) : p.text ≠ "" :=
  (pathError?_eq_none.1 (pathError?_of_follow h)).2.1

/-- A name that is joined to a path can make it too long, and nothing else is wrong then. -/
theorem pathError?_join {p : Path} {name : String} (hp : pathError? p = none)
    (hname : IsName name) : pathError? (p.join name) =
      if (p.join name).text.utf8ByteSize > 4095 then some .nameTooLong else none := by
  obtain ⟨hnul, hne, -⟩ := pathError?_eq_none.1 hp
  obtain ⟨front, hjoin, hfront⟩ := p.join_name hname hne
  have hsub : ∀ c ∈ front.toList, c ∈ p.text.toList := by
    intro c hc
    rcases hfront with htext | htext
    · rw [htext]
      exact hc
    · rw [htext]
      simp [hc]
  have hnul' : '\x00' ∉ (p.join name).text.toList := by
    intro hmem
    simp only [hjoin, String.toList_append, List.mem_append] at hmem
    rcases hmem with (hmem | hmem) | hmem
    · exact hnul (hsub _ hmem)
    · exact absurd hmem (by decide +kernel)
    · exact hname.nul hmem
  unfold pathError?
  rw [if_neg (by simpa using hnul'), if_neg (p.join_ne_empty hname hne)]

/-- The joined path starts where the path does. -/
theorem start_join (t : Tree) {p : Path} {name front : String} (hne : p.text ≠ "")
    (hjoin : (p.join name).text = front ++ "/" ++ name)
    (hfront : p.text = front ∨ p.text = front ++ "/") : t.start (p.join name) = t.start p := by
  have hhead : (p.join name).text.toList.head? = p.text.toList.head? := by
    rw [hjoin]
    rcases hfront with htext | htext
    · rw [← htext]
      cases hchars : p.text.toList with
      | nil => exact absurd (by simpa using hchars) hne
      | cons c cs => simp [hchars]
    · rw [htext]
      cases hchars : front.toList with
      | nil => simp [hchars]
      | cons c cs => simp [hchars]
  unfold start Path.isAbsolute
  rw [hhead]

/-- What stands before the slash leads where the path does. -/
theorem walk_front {t : Tree} {p : Path} {front : String} {pos : Position}
    (hp : t.walk (t.start p) p.parts = .ok pos)
    (hfront : p.text = front ∨ p.text = front ++ "/") :
    t.walk (t.start p) (splitAll front '/') = .ok pos := by
  rcases hfront with htext | htext
  · rw [← htext]
    exact hp
  · have hslash : String.singleton '/' = "/" := rfl
    have hlast : p.parts = splitAll front '/' ++ [""] := by
      have hsplit := splitAll_append '/' front "" (by simp)
      rwa [hslash, String.append_empty, ← htext] at hsplit
    rw [hlast, walk_append] at hp
    cases hbefore : t.walk (t.start p) (splitAll front '/') with
    | error e =>
      rw [hbefore] at hp
      cases hp
    | ok pos' =>
      rw [hbefore] at hp
      rw [walk_empty hp]

/-- A path to a directory and a name in it. -/
theorem follow_join {t : Tree} {p : Path} {pos : Position} {name : String}
    (hp : t.follow p p.parts = .ok pos) (hdir : t.node? pos = some .directory)
    (hname : IsName name) (hsize : (p.join name).text.utf8ByteSize ≤ 4095) :
    t.follow (p.join name) (p.join name).parts = .ok (pos ++ [name]) := by
  have herror := pathError?_of_follow hp
  have hne := text_ne_empty_of_follow hp
  obtain ⟨front, hjoin, hfront⟩ := p.join_name hname hne
  unfold follow at hp ⊢
  rw [herror] at hp
  rw [pathError?_join herror hname, if_neg (Nat.not_lt.2 hsize)]
  dsimp only at hp ⊢
  rw [Path.parts_join hname hjoin, start_join t hne hjoin hfront, walk_append,
    walk_front hp hfront]
  exact walk_name hname hdir

/-! ## Growing trees -/

/-- The tree has everything that `t` has. -/
structure Extends (t t' : Tree) : Prop where
  cwd : t'.cwd = t.cwd
  node? : ∀ pos n, t.node? pos = some n → t'.node? pos = some n

namespace Extends

theorem refl (t : Tree) : t.Extends t :=
  ⟨rfl, fun _ _ h => h⟩

theorem trans {t₁ t₂ t₃ : Tree} (h : t₁.Extends t₂) (h' : t₂.Extends t₃) : t₁.Extends t₃ :=
  ⟨h'.cwd.trans h.cwd, fun pos n hn => h'.node? pos n (h.node? pos n hn)⟩

theorem place {t : Tree} {pos : Position} (n : Node) (h : t.node? pos = none) :
    t.Extends (t.place pos n) := by
  refine ⟨rfl, ?_⟩
  intro q m hm
  by_cases hq : q = pos
  · rw [hq, h] at hm
    cases hm
  · rw [node?_place_of_ne n hq]
    exact hm

theorem walk {t t' : Tree} (h : t.Extends t') {pos pos' : Position} {names : List String}
    (hw : t.walk pos names = .ok pos') : t'.walk pos names = .ok pos' := by
  induction names generalizing pos with
  | nil => exact hw
  | cons name names ih =>
    simp only [Tree.walk] at hw ⊢
    cases hnode : t.node? pos with
    | none => rw [hnode] at hw; cases hw
    | some n =>
      rw [hnode] at hw
      rw [h.node? pos n hnode]
      cases n with
      | file content => cases hw
      | directory =>
        dsimp only at hw ⊢
        by_cases hhere : name = "" ∨ name = "."
        · rw [if_pos hhere] at hw ⊢
          exact ih hw
        rw [if_neg hhere] at hw ⊢
        by_cases habove : name = ".."
        · rw [if_pos habove] at hw ⊢
          exact ih hw
        rw [if_neg habove] at hw ⊢
        by_cases hsize : name.utf8ByteSize > 255
        · rw [if_pos hsize] at hw
          cases hw
        · rw [if_neg hsize] at hw ⊢
          exact ih hw

theorem follow {t t' : Tree} (h : t.Extends t') {p : Path} {names : List String} {pos : Position}
    (hf : t.follow p names = .ok pos) : t'.follow p names = .ok pos := by
  unfold Tree.follow at hf ⊢
  split at hf
  · cases hf
  · rename_i herror
    have hstart : t'.start p = t.start p := by
      unfold start
      rw [h.cwd]
    rw [hstart]
    exact h.walk hf

end Extends
/-! ## Empty directories -/

/-- The path leads to a directory that has nothing in it. -/
structure EmptyAt (t : Tree) (p : Path) (pos : Position) : Prop where
  leads : t.follow p p.parts = .ok pos
  directory : t.node? pos = some .directory
  nothing : ∀ name rest, t.node? (pos ++ name :: rest) = none

/-- A place that is free in a tree has no entry. -/
theorem not_entry {t : Tree} {pos : Position} (h : t.node? pos = none) :
    ∀ entry ∈ t.nodes, entry.1 ≠ pos := by
  unfold node? at h
  split at h
  · cases h
  · intro entry hentry he
    rw [List.lookup_eq_none_iff] at h
    have := h entry hentry
    simp [he] at this

theorem place_fresh {t : Tree} {pos : Position} (n : Node) (h : t.node? pos = none) :
    t.place pos n = { t with nodes := (pos, n) :: t.nodes } := by
  have hall : t.nodes.filter (·.1 ≠ pos) = t.nodes :=
    List.filter_eq_self.2 fun entry hentry => by simpa using not_entry h entry hentry
  rw [place, hall]

theorem write_fresh {t : Tree} {p : Path} {pos : Position} (content : List UInt8)
    (hp : t.follow p p.parts = .ok pos) (h : t.node? pos = none) :
    t.write p content = .ok (t.place pos (.file content)) := by
  unfold write
  rw [hp]
  dsimp only
  rw [h]

theorem find_of_follow {t : Tree} {p : Path} {pos : Position} {n : Node}
    (hp : t.follow p p.parts = .ok pos) (h : t.node? pos = some n) : t.find p = .ok n := by
  unfold find
  rw [hp]
  dsimp only
  rw [h]

theorem createAll_below {t : Tree} {p : Path} {pos : Position} {name : String}
    (h : t.EmptyAt p pos) (hname : IsName name)
    (hsize : (p.join name).text.utf8ByteSize ≤ 4095) :
    t.createAll (p.join name) = (t.place (pos ++ [name]) .directory, .ok ()) := by
  have hfollow := follow_join h.leads h.directory hname hsize
  have hfree : t.node? (pos ++ [name]) = none := h.nothing name []
  have herror := pathError?_of_follow hfollow
  have hne := text_ne_empty_of_follow h.leads
  have hparts : ((p.join name).parts.reverse.dropWhile (· = "")).reverse = (p.join name).parts := by
    obtain ⟨front, hjoin, -⟩ := p.join_name hname hne
    rw [Path.parts_join hname hjoin, List.reverse_append, List.reverse_singleton,
      List.singleton_append, List.dropWhile_cons_of_neg (by simpa using hname.ne_empty),
      List.reverse_cons, List.reverse_reverse]
  have hmake : t.makeDirectory (p.join name) = .ok (t.place (pos ++ [name]) .directory) := by
    unfold makeDirectory
    rw [hparts, hfollow]
    dsimp only
    rw [hfree]
  have hensure : t.ensureDirectory (p.join name) = .ok (t.place (pos ++ [name]) .directory) := by
    unfold ensureDirectory
    rw [hmake]
  unfold createAll
  rw [if_neg (pathError?_eq_none.1 herror).2.1, herror]
  dsimp only
  rw [Path.ancestors, createDown, hensure]

theorem createAll_tooLong {t : Tree} {p : Path} (h : pathError? p = some .nameTooLong) :
    t.createAll p = (t, .error .nameTooLong) := by
  have hne : p.text ≠ "" := by
    intro he
    simp [pathError?, he] at h
  unfold createAll
  rw [if_neg hne, h]

theorem write_tooLong {t : Tree} {p : Path} (content : List UInt8)
    (h : pathError? p = some .nameTooLong) : t.write p content = .error .nameTooLong := by
  unfold write follow
  rw [h]

end Tree
end Files
end ScreenGraph
