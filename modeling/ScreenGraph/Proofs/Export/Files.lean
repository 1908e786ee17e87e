import Mathlib.Data.List.Perm.Lattice
import ScreenGraph.Export
import ScreenGraph.Proofs.Files.Below
import ScreenGraph.Proofs.Graph.Sound

/-!
# ScreenGraph.Proofs.Export.Files

What is there after a graph was exported to an empty directory.

* `mem_sortedStates`: the states that are written are the registered ones.
* `writeAll_fresh`: files that lie where nothing is are all written, if no path is too long.
* `exportGraph_spec`: every state but the empty one and every trace has its file, and the directory
  has the files of the traces and the directory of the states in it, and nothing else.
-/

namespace ScreenGraph

open Files Graph Identity Load Record Screen Text

/-! ## Names -/

namespace Text

theorem utf8ByteSize_plain {s : String} (h : ∀ c ∈ s.toList, isPlain c = true) :
    s.utf8ByteSize = s.toList.length := by
  have hchars : ∀ cs : List Char, (∀ c ∈ cs, isPlain c = true) →
      (String.ofList cs).utf8ByteSize = cs.length := by
    intro cs hcs
    induction cs with
    | nil => rfl
    | cons c cs ih =>
      have hsplit : String.ofList (c :: cs) = String.singleton c ++ String.ofList cs := by
        apply String.toList_inj.1
        simp
      have hc : c.utf8Size = 1 := by
        have hrange := toNat_of_isPlain (hcs c List.mem_cons_self)
        rw [Char.utf8Size_eq_one_iff, UInt32.le_iff_toNat_le]
        show c.toNat ≤ 127
        omega
      rw [hsplit, String.utf8ByteSize_append, String.utf8ByteSize_singleton, hc,
        ih fun d hd => hcs d (List.mem_cons_of_mem _ hd), List.length_cons]
      omega
  rw [← hchars s.toList h, String.ofList_toList]

end Text

namespace Files

theorem size_csv : ".csv".utf8ByteSize = 4 := by
  decide +kernel

/-- Names of record files. -/
theorem isName_csv (front : String) {kind : Kind} (id : Ident kind)
    (hfront : ∀ c ∈ front.toList, isPlain c = true) (hlen : front.toList.length ≤ 200) :
    IsName (front ++ id.text ++ ".csv") := by
  have hplain : ∀ c ∈ (front ++ id.text).toList, isPlain c = true := by
    intro c hc
    rw [String.toList_append] at hc
    rcases List.mem_append.1 hc with hc | hc
    · exact hfront c hc
    · exact id.text_plain c hc
  have hcount : (front ++ id.text).utf8ByteSize = front.toList.length + 36 := by
    rw [utf8ByteSize_plain hplain, String.toList_append, List.length_append, id.text_length]
  have hend : ".csv".toList = ['.', 'c', 's', 'v'] := by decide +kernel
  have hchars : (front ++ id.text ++ ".csv").toList =
      (front ++ id.text).toList ++ ['.', 'c', 's', 'v'] := by
    rw [String.toList_append, hend]
  have hlong : ∀ s : String, s.toList.length < 40 → front ++ id.text ++ ".csv" ≠ s := by
    intro s hs he
    rw [← he, hchars, String.toList_append, List.length_append, List.length_append,
      id.text_length] at hs
    simp at hs
    omega
  have hnot : ∀ c, isPlain c = false → c ∉ ['.', 'c', 's', 'v'] →
      c ∉ (front ++ id.text ++ ".csv").toList := by
    intro c hc hends hmem
    rw [hchars] at hmem
    rcases List.mem_append.1 hmem with hmem | hmem
    · rw [hplain c hmem] at hc
      cases hc
    · exact hends hmem
  refine ⟨hlong "" (by decide +kernel), hlong "." (by decide +kernel),
    hlong ".." (by decide +kernel), hnot '/' (by decide) (by decide),
    hnot '\x00' (by decide) (by decide), ?_⟩
  rw [String.utf8ByteSize_append, hcount, size_csv]
  omega

end Files

/-! ## What is written -/

namespace Graph

theorem mem_sortedStates {g : Graph} (hg : g.Sound) {s : State} :
    s ∈ g.sortedStates ↔ g.state? s.id = some s := by
  rw [sortedStates, (sortBy_perm _ _).mem_iff, Registry.values, List.mem_map]
  constructor
  · rintro ⟨⟨id, s'⟩, hmem, rfl⟩
    have hfound : g.state? id = some s' := (Registry.find?_eq_some_iff hg.stateKeys).2 hmem
    rw [hg.stateKey id s' hfound]
    exact hfound
  · intro h
    exact ⟨(s.id, s), (Registry.find?_eq_some_iff hg.stateKeys).1 h, rfl⟩

theorem nodup_sortedStates {g : Graph} (hg : g.Sound) : (g.sortedStates.map (·.id)).Nodup := by
  have hkeys : g.states.values.map (·.id) = g.states.keys := by
    rw [Registry.values, Registry.keys, List.map_map]
    refine List.map_congr_left ?_
    intro entry hentry
    exact hg.stateKey _ _ ((Registry.find?_eq_some_iff hg.stateKeys).2 hentry)
  rw [sortedStates, ((sortBy_perm _ _).map _).nodup_iff, hkeys]
  exact hg.stateKeys

end Graph

namespace Export

/-- A file to be written, and where its path leads. -/
structure Filing where
  path : Path
  position : Position
  text : String

def Filing.entry (f : Filing) : Position × Node :=
  (f.position, .file (utf8 f.text))

/-- A file whose place is free. It can be written there unless its path is too long. -/
structure Filing.Fresh (t : Tree) (f : Filing) : Prop where
  free : t.node? f.position = none
  leads : f.path.text.utf8ByteSize ≤ 4095 → t.follow f.path f.path.parts = .ok f.position
  tooLong : 4095 < f.path.text.utf8ByteSize → Tree.pathError? f.path = some .nameTooLong

/-- Writing a file leaves the other places free. -/
theorem Filing.Fresh.place {t : Tree} {f f' : Filing} (hf : f.Fresh t) (hf' : f'.Fresh t)
    (hne : f'.position ≠ f.position) : f'.Fresh (t.place f.position (.file (utf8 f.text))) where
  free := by
    rw [Tree.node?_place_of_ne _ hne]
    exact hf'.free
  leads := fun hshort => (Tree.Extends.place _ hf.free).follow (hf'.leads hshort)
  tooLong := hf'.tooLong

/-- A free name in a directory. -/
theorem Filing.Fresh.join {t : Tree} {p : Path} {pos : Position} {name : String} (text : String)
    (hp : t.follow p p.parts = .ok pos) (hdir : t.node? pos = some .directory)
    (hname : IsName name) (hfree : t.node? (pos ++ [name]) = none) :
    (⟨p.join name, pos ++ [name], text⟩ : Filing).Fresh t where
  free := hfree
  leads := Tree.follow_join hp hdir hname
  tooLong := fun hlong => by
    rw [Tree.pathError?_join (Tree.pathError?_of_follow hp) hname]
    exact if_pos hlong

theorem Filing.Fresh.rest {t : Tree} {f : Filing} {filings : List Filing}
    (hfresh : ∀ f' ∈ f :: filings, f'.Fresh t)
    (hnodup : ((f :: filings).map (·.position)).Nodup) :
    ∀ f' ∈ filings, f'.Fresh (t.place f.position (.file (utf8 f.text))) := by
  intro f' hf'
  have hne : f'.position ≠ f.position := by
    intro he
    exact (List.nodup_cons.1 hnodup).1 (List.mem_map.2 ⟨f', hf', he⟩)
  exact (hfresh f List.mem_cons_self).place (hfresh f' (List.mem_cons_of_mem _ hf')) hne

/-- Fresh files whose paths are short enough are all written, the last one to the front of the
entries. -/
theorem writeAll_fresh {t : Tree} {filings : List Filing} (hfresh : ∀ f ∈ filings, f.Fresh t)
    (hnodup : (filings.map (·.position)).Nodup)
    (hshort : ∀ f ∈ filings, f.path.text.utf8ByteSize ≤ 4095) :
    let t' : Tree := { t with nodes := (filings.map (·.entry)).reverse ++ t.nodes }
    writeAll t (filings.map fun f => (f.path, f.text)) = (t', none) ∧ t.Extends t' ∧
      ∀ f ∈ filings, t'.node? f.position = some (.file (utf8 f.text)) := by
  induction filings generalizing t with
  | nil => exact ⟨rfl, .refl t, fun f hf => by cases hf⟩
  | cons f filings ih =>
    have hf := hfresh f List.mem_cons_self
    have hne : f.position ≠ [] := by
      intro he
      have hfree := hf.free
      rw [he] at hfree
      cases hfree
    let t₁ := t.place f.position (.file (utf8 f.text))
    have hext : t.Extends t₁ := .place _ hf.free
    have hwrite : t.write f.path (utf8 f.text) = .ok t₁ :=
      Tree.write_fresh _ (hf.leads (hshort f List.mem_cons_self)) hf.free
    obtain ⟨hall, hext', hnodes⟩ := ih (t := t₁) (Filing.Fresh.rest hfresh hnodup)
      (List.nodup_cons.1 hnodup).2 fun f' hf' => hshort f' (List.mem_cons_of_mem _ hf')
    have ht₁ : t₁.nodes = f.entry :: t.nodes := by
      show (t.place f.position (.file (utf8 f.text))).nodes = _
      rw [Tree.place_fresh _ hf.free]
      rfl
    have htree : ({ t₁ with nodes := (filings.map (·.entry)).reverse ++ t₁.nodes } : Tree) =
        { t with nodes := ((f :: filings).map (·.entry)).reverse ++ t.nodes } := by
      rw [ht₁, List.map_cons, List.reverse_cons, List.append_assoc]
      rfl
    rw [htree] at hall hext' hnodes
    refine ⟨?_, hext.trans hext', ?_⟩
    · rw [List.map_cons, writeAll, hwrite]
      exact hall
    · intro f' hf'
      rcases List.mem_cons.1 hf' with rfl | hf'
      · exact hext'.node? _ _ (Tree.node?_place_self _ hne)
      · exact hnodes f' hf'

/-- Writing fresh files stops at the first one whose path is too long. -/
theorem writeAll_tooLong {t : Tree} {filings : List Filing} (hfresh : ∀ f ∈ filings, f.Fresh t)
    (hnodup : (filings.map (·.position)).Nodup)
    (hlong : ∃ f ∈ filings, 4095 < f.path.text.utf8ByteSize) :
    ∃ t' path, writeAll t (filings.map fun f => (f.path, f.text)) =
      (t', some (.write path .nameTooLong)) := by
  induction filings generalizing t with
  | nil =>
    obtain ⟨f, hf, -⟩ := hlong
    cases hf
  | cons f filings ih =>
    have hf := hfresh f List.mem_cons_self
    rw [List.map_cons, writeAll]
    by_cases hsize : 4095 < f.path.text.utf8ByteSize
    · rw [Tree.write_tooLong _ (hf.tooLong hsize)]
      exact ⟨t, f.path, rfl⟩
    · rw [Tree.write_fresh _ (hf.leads (Nat.not_lt.1 hsize)) hf.free]
      refine ih (Filing.Fresh.rest hfresh hnodup) (List.nodup_cons.1 hnodup).2 ?_
      obtain ⟨f', hf', hlong'⟩ := hlong
      rcases List.mem_cons.1 hf' with rfl | hf'
      · exact absurd hlong' hsize
      · exact ⟨f', hf', hlong'⟩

/-- The names that files and directories have unless something else is asked for. -/
structure Standard (settings : Settings) : Prop where
  tracePrefix : settings.tracePrefix = "trace"
  statesDir : settings.statesDir = "states"

def traceName (id : TraceId) : String :=
  "trace" ++ id.text ++ ".csv"

/-- The names in a directory, in their order. -/
def nameLe (a b : String) : Bool :=
  lexLe Char.toNat a.toList b.toList

/-- A directory that a graph was exported to. -/
structure Exported (settings : Settings) (g : Graph) (files : Tree) : Prop where
  state : ∀ id s, g.state? id = some s → s.isEmpty = false →
    files.find (settings.statePath s.id.text) =
      .ok (.file (utf8 (stateText settings.separator s)))
  trace : ∀ t ∈ g.traces, files.find (settings.tracePath t.id) =
    .ok (.file (utf8 (traceText settings.separator t)))
  names : ∃ names, files.list settings.baseDir = .ok names ∧
    names.Perm ("states" :: g.traces.map fun t => traceName t.id) ∧
    names.Pairwise (nameLe · · = true)

/-- The files of a graph below the directory at a position. -/
def filingsAt (settings : Settings) (g : Graph) (pos : Position) : List Filing :=
  (recordedStates g).map (fun s => ⟨settings.statePath s.id.text,
      pos ++ ["states"] ++ [s.id.text ++ ".csv"], stateText settings.separator s⟩)
    ++ g.traces.map (fun t => ⟨settings.tracePath t.id, pos ++ [traceName t.id],
      traceText settings.separator t⟩)

theorem contents_eq (settings : Settings) (g : Graph) (pos : Position) :
    contents settings g = (filingsAt settings g pos).map fun f => (f.path, f.text) := by
  simp only [contents, filingsAt, List.map_append, List.map_map, Function.comp_def]

theorem isName_states : IsName "states" :=
  ⟨by decide +kernel, by decide +kernel, by decide +kernel, by decide +kernel, by decide +kernel,
    by decide +kernel⟩

theorem isName_stateFile (id : StateId) : IsName (id.text ++ ".csv") := by
  have h := isName_csv "" id (by simp) (by simp)
  rwa [String.empty_append] at h

theorem isName_traceName (id : TraceId) : IsName (traceName id) :=
  isName_csv "trace" id (plain_of_all (by decide +kernel)) (by decide +kernel)

theorem size_stateFile (id : StateId) : (id.text ++ ".csv").utf8ByteSize = 40 := by
  rw [String.utf8ByteSize_append, utf8ByteSize_plain id.text_plain, id.text_length, size_csv]

theorem size_traceName (id : TraceId) : (traceName id).utf8ByteSize = 45 := by
  have hfront : "trace".utf8ByteSize = 5 := by decide +kernel
  rw [traceName, String.utf8ByteSize_append, String.utf8ByteSize_append,
    utf8ByteSize_plain id.text_plain, id.text_length, size_csv, hfront]

/-- No two files of a graph lie in one place. -/
theorem nodup_filingsAt {settings : Settings} {g : Graph} (pos : Position) (hg : g.Sound) :
    ((filingsAt settings g pos).map (·.position)).Nodup := by
  have hlast : ∀ {front : Position} {a b : String}, front ++ [a] = front ++ [b] → a = b := by
    intro front a b h
    exact (List.cons.inj (List.append_cancel_left h)).1
  have hstates : ((recordedStates g).map (·.id)).Nodup :=
    (List.filter_sublist.map _).nodup (nodup_sortedStates hg)
  rw [filingsAt, List.map_append, List.map_map, List.map_map, List.nodup_append]
  refine ⟨?_, ?_, ?_⟩
  · have hplaces := hstates.map (f := fun id : StateId => pos ++ ["states"] ++ [id.text ++ ".csv"])
      fun a b h => Ident.text_injective ((String.append_left_inj ".csv").1 (hlast h))
    rwa [List.map_map] at hplaces
  · have hplaces := hg.traceIds.map (f := fun id : TraceId => pos ++ [traceName id])
      fun a b h => Ident.text_injective
        ((String.append_right_inj "trace").1 ((String.append_left_inj ".csv").1 (hlast h)))
    rwa [List.map_map] at hplaces
  · intro p hp q hq he
    obtain ⟨s, -, rfl⟩ := List.mem_map.1 hp
    obtain ⟨t, -, rfl⟩ := List.mem_map.1 hq
    have hlen := congrArg List.length he
    simp at hlen

/-- The directory lies so deep that the path of a file in it is too long to be written. -/
def TooDeep (base : Path) (e : LoadError) : Prop :=
  4095 < base.text.utf8ByteSize + 48 ∧ ∃ path, e = .write path .nameTooLong

theorem not_tooDeep {base : Path} {e : LoadError} (h : base.text.utf8ByteSize + 48 ≤ 4095) :
    ¬ TooDeep base e := by
  rintro ⟨hdeep, -⟩
  exact Nat.not_lt.2 h hdeep

theorem statesPath_standard {settings : Settings} (h : Standard settings) :
    settings.statesPath = settings.baseDir.join "states" := by
  rw [Settings.statesPath, h.statesDir]

theorem tracePath_standard {settings : Settings} (h : Standard settings) (id : TraceId) :
    settings.tracePath id = settings.baseDir.join (traceName id) := by
  rw [Settings.tracePath, h.tracePrefix]
  rfl

theorem size_states : "states".utf8ByteSize = 6 := by
  decide +kernel

theorem size_filing {settings : Settings} {g : Graph} {pos : Position} {f : Filing}
    (hstandard : Standard settings) (hne : settings.baseDir.text ≠ "")
    (hf : f ∈ filingsAt settings g pos) :
    f.path.text.utf8ByteSize ≤ settings.baseDir.text.utf8ByteSize + 48 := by
  rcases List.mem_append.1 hf with hf | hf
  · obtain ⟨s, -, rfl⟩ := List.mem_map.1 hf
    have hstates := settings.baseDir.size_join isName_states hne
    have hfile := (settings.baseDir.join "states").size_join (isName_stateFile s.id)
      (settings.baseDir.join_ne_empty isName_states hne)
    rw [size_states] at hstates
    rw [size_stateFile] at hfile
    rw [Settings.statePath, statesPath_standard hstandard]
    dsimp only
    omega
  · obtain ⟨t, -, rfl⟩ := List.mem_map.1 hf
    have hfile := settings.baseDir.size_join (isName_traceName t.id) hne
    rw [size_traceName] at hfile
    rw [tracePath_standard hstandard]
    dsimp only
    omega

/-- Every file of the graph is fresh once the directory of the states is there. -/
theorem filings_fresh {settings : Settings} (g : Graph) {target : Tree} {pos : Position}
    (hstandard : Standard settings) (hempty : target.EmptyAt settings.baseDir pos)
    (hshort : settings.statesPath.text.utf8ByteSize ≤ 4095) :
    ∀ f ∈ filingsAt settings g pos, f.Fresh (target.place (pos ++ ["states"]) .directory) := by
  intro f hf
  have hext : target.Extends (target.place (pos ++ ["states"]) .directory) :=
    .place _ (hempty.nothing _ [])
  have hbase := hext.follow hempty.leads
  have hdir := hext.node? _ _ hempty.directory
  rcases List.mem_append.1 hf with hf | hf
  · obtain ⟨s, -, rfl⟩ := List.mem_map.1 hf
    rw [statesPath_standard hstandard] at hshort
    have hstates := Tree.follow_join hbase hdir isName_states hshort
    rw [Settings.statePath, statesPath_standard hstandard]
    refine .join _ hstates (Tree.node?_place_self _ (by simp)) (isName_stateFile s.id) ?_
    rw [Tree.node?_place_of_ne _ (by simp), List.append_assoc]
    exact hempty.nothing _ _
  · obtain ⟨t, -, rfl⟩ := List.mem_map.1 hf
    rw [tracePath_standard hstandard]
    refine .join _ hbase hdir (isName_traceName t.id) ?_
    have hother : traceName t.id ≠ "states" := by
      intro he
      have hsize := size_traceName t.id
      rw [he, size_states] at hsize
      cases hsize
    rw [Tree.node?_place_of_ne _ (by simpa using hother)]
    exact hempty.nothing _ []

/-! ## The directory afterwards -/

/-- The name of an entry that lies in the directory at a position. -/
def entryName? (pos : Position) (entry : Position × Node) : Option String :=
  if entry.1.dropLast = pos then entry.1.getLast? else none

theorem entryName?_append (pos : Position) (name : String) (n : Node) :
    entryName? pos (pos ++ [name], n) = some name := by
  simp [entryName?]

theorem entryName?_below (pos : Position) (dir name : String) (n : Node) :
    entryName? pos (pos ++ [dir] ++ [name], n) = none := by
  simp [entryName?]

theorem list_eq {t : Tree} {p : Path} {pos : Position} (hp : t.follow p p.parts = .ok pos)
    (hdir : t.node? pos = some .directory) :
    t.list p = .ok (sortBy nameLe (t.nodes.filterMap (entryName? pos))) := by
  unfold Tree.list
  rw [hp]
  dsimp only
  rw [hdir]
  rfl

/-- An empty directory has no names in it. -/
theorem entryNames_empty {t : Tree} {p : Path} {pos : Position} (hempty : t.EmptyAt p pos) :
    t.nodes.filterMap (entryName? pos) = [] := by
  rw [List.filterMap_eq_nil_iff]
  intro entry hentry
  unfold entryName?
  split
  · rename_i hpos
    cases hlast : entry.1.getLast? with
    | none => rfl
    | some name =>
      have hsplit : entry.1 = pos ++ [name] := by
        obtain ⟨front, hfront⟩ := List.getLast?_eq_some_iff.1 hlast
        rw [hfront, List.dropLast_concat] at hpos
        rw [hfront, hpos]
      exact absurd hsplit (Tree.not_entry (hempty.nothing name []) entry hentry)
  · rfl

/-- Of the files of a graph only the traces lie in the directory itself. -/
theorem entryNames_filings (settings : Settings) (g : Graph) (pos : Position) :
    ((filingsAt settings g pos).map (·.entry)).filterMap (entryName? pos) =
      g.traces.map fun t => traceName t.id := by
  rw [filingsAt, List.map_append, List.filterMap_append]
  have hstates : ∀ states : List State, ((states.map fun s => (⟨settings.statePath s.id.text,
      pos ++ ["states"] ++ [s.id.text ++ ".csv"], stateText settings.separator s⟩ : Filing)).map
        (·.entry)).filterMap (entryName? pos) = [] := by
    intro states
    rw [List.filterMap_eq_nil_iff]
    intro entry hentry
    simp only [List.map_map, List.mem_map] at hentry
    obtain ⟨s, -, rfl⟩ := hentry
    exact entryName?_below pos "states" _ _
  rw [hstates, List.nil_append]
  induction g.traces with
  | nil => rfl
  | cons t ts ih =>
    rw [List.map_cons, List.map_cons, List.map_cons, Filing.entry,
      List.filterMap_cons_some (entryName?_append pos (traceName t.id) _), ih]

/-- The directory of the states and the files of the traces are there, and nothing else. -/
theorem list_filings {settings : Settings} (g : Graph) {t target : Tree} {pos : Position}
    (hempty : target.EmptyAt settings.baseDir pos) (hext : target.Extends t)
    (hnodes : t.nodes = ((filingsAt settings g pos).map (·.entry)).reverse ++
      (pos ++ ["states"], .directory) :: target.nodes) :
    ∃ names, t.list settings.baseDir = .ok names ∧
      names.Perm ("states" :: g.traces.map fun t => traceName t.id) ∧
      names.Pairwise (nameLe · · = true) := by
  have hlist := list_eq (hext.follow hempty.leads) (hext.node? _ _ hempty.directory)
  refine ⟨_, hlist, (sortBy_perm _ _).trans ?_, sortBy_pairwise (fun _ _ _ => lexLe_trans _ _ _)
    (fun _ _ => lexLe_total _ _) _⟩
  rw [hnodes, List.filterMap_append, List.filterMap_reverse, entryNames_filings,
    List.filterMap_cons_some (entryName?_append pos "states" _), entryNames_empty hempty]
  exact ((List.reverse_perm _).append_right _).trans (List.perm_append_singleton _ _)

/-- The files are there once they were written. -/
theorem exported_of_written {settings : Settings} {g : Graph} {files target : Tree}
    {pos : Position} (hg : g.Sound) (hempty : target.EmptyAt settings.baseDir pos)
    (hext : target.Extends files)
    (hnodes : files.nodes = ((filingsAt settings g pos).map (·.entry)).reverse ++
      (pos ++ ["states"], .directory) :: target.nodes)
    (hfound : ∀ f ∈ filingsAt settings g pos, files.find f.path = .ok (.file (utf8 f.text))) :
    Exported settings g files where
  state := by
    intro id s hs hne
    have hid := hg.stateKey id s hs
    have hmem : s ∈ recordedStates g :=
      List.mem_filter.2 ⟨(mem_sortedStates hg).2 (by rw [hid]; exact hs), by simp [hne]⟩
    have hfile := hfound _ (List.mem_append_left _ (List.mem_map.2 ⟨s, hmem, rfl⟩))
    dsimp only at hfile
    exact hfile
  trace := by
    intro t ht
    have hfile := hfound _ (List.mem_append_right _ (List.mem_map.2 ⟨t, ht, rfl⟩))
    dsimp only at hfile
    exact hfile
  names := list_filings g hempty hext hnodes

/-- An export to an empty directory goes through, unless the directory lies so deep that the path
of a file is too long. -/
theorem exportGraph_spec {settings : Settings} {g : Graph} {target : Tree} {pos : Position}
    (hg : g.Sound) (hstandard : Standard settings)
    (hempty : target.EmptyAt settings.baseDir pos) :
    (∃ files, exportGraph settings g target =
        (files, .ok ⟨(recordedStates g).length, g.traces.length⟩) ∧ Exported settings g files) ∨
      ∃ files e, exportGraph settings g target = (files, .error e) ∧
        TooDeep settings.baseDir e := by
  have hne := Tree.text_ne_empty_of_follow hempty.leads
  have hstates := settings.baseDir.size_join isName_states hne
  rw [size_states, ← statesPath_standard hstandard] at hstates
  by_cases hlongDir : 4095 < settings.statesPath.text.utf8ByteSize
  · have herror : Tree.pathError? settings.statesPath = some .nameTooLong := by
      rw [statesPath_standard hstandard] at hlongDir ⊢
      rw [Tree.pathError?_join (Tree.pathError?_of_follow hempty.leads) isName_states]
      exact if_pos hlongDir
    refine .inr ⟨target, _, ?_, by omega, settings.statesPath, rfl⟩
    rw [exportGraph, Tree.createAll_tooLong herror]
  have hshortDir := Nat.not_lt.1 hlongDir
  have hfree : target.node? (pos ++ ["states"]) = none := hempty.nothing _ []
  have hfresh := filings_fresh g hstandard hempty hshortDir
  have hcreate : target.createAll settings.statesPath =
      (target.place (pos ++ ["states"]) .directory, .ok ()) := by
    rw [statesPath_standard hstandard] at hshortDir ⊢
    exact Tree.createAll_below hempty isName_states hshortDir
  rw [exportGraph, hcreate]
  dsimp only
  rw [contents_eq settings g pos]
  by_cases hlong : ∃ f ∈ filingsAt settings g pos, 4095 < f.path.text.utf8ByteSize
  · obtain ⟨files, path, hwrite⟩ := writeAll_tooLong hfresh (nodup_filingsAt pos hg) hlong
    obtain ⟨f, hf, hsize⟩ := hlong
    have hbound := size_filing hstandard hne hf
    refine .inr ⟨files, _, ?_, by omega, path, rfl⟩
    rw [hwrite]
  · have hshort : ∀ f ∈ filingsAt settings g pos, f.path.text.utf8ByteSize ≤ 4095 := by
      intro f hf
      exact Nat.not_lt.1 fun hsize => hlong ⟨f, hf, hsize⟩
    obtain ⟨hwrite, hext, hnodes⟩ := writeAll_fresh hfresh (nodup_filingsAt pos hg) hshort
    rw [hwrite]
    refine .inl ⟨_, rfl, exported_of_written hg hempty ((Tree.Extends.place _ hfree).trans hext)
      ?_ ?_⟩
    · rw [Tree.place_fresh _ hfree]
    · intro f hf
      exact Tree.find_of_follow (hext.follow ((hfresh f hf).leads (hshort f hf))) (hnodes f hf)

end Export
end ScreenGraph
