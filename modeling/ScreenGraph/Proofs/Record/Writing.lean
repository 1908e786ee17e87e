import ScreenGraph.Proofs.Record.Reading
import ScreenGraph.Proofs.Text.Plain
import ScreenGraph.Record.Row

/-!
# ScreenGraph.Proofs.Record.Writing

Written record files are read back.

A line that ends in a character that is no blank keeps its end, and a line without line feeds stays
one line. Rows of such lines whose fields hold no separator, except for the last one, come back as
records numbered from the second line on.

* `Clean.lines_cons`: a written line is found again.
* `item?_written`: a written row is a record again.
* `openFile_fileText`, `readAll_fileText`: a whole file.
-/

namespace ScreenGraph

open Files Text

namespace Text

theorem getLast?_joinChars (sep : Char) (fs : List (List Char)) {last : List Char}
    (h : last ≠ []) : (joinChars sep (fs ++ [last])).getLast? = last.getLast? := by
  induction fs with
  | nil => rfl
  | cons f fs ih =>
    have hne : joinChars sep (fs ++ [last]) ≠ [] := by
      intro he
      rw [he, List.getLast?_nil] at ih
      exact h (List.getLast?_eq_none_iff.1 ih.symm)
    cases hfs : fs ++ [last] with
    | nil => simp at hfs
    | cons g gs =>
      rw [List.cons_append, hfs, joinChars, ← hfs, List.getLast?_append, List.getLast?_cons,
        ← ih]
      cases hj : (joinChars sep (fs ++ [last])).getLast? with
      | none => exact absurd (List.getLast?_eq_none_iff.1 hj) hne
      | some c => simp

theorem head?_joinChars (sep : Char) {f : List Char} (fs : List (List Char)) (h : f ≠ []) :
    (joinChars sep (f :: fs)).head? = f.head? := by
  cases fs with
  | nil => rfl
  | cons g gs =>
    cases f with
    | nil => exact absurd rfl h
    | cons c f => rfl

end Text

namespace Record

/-! ## Lines -/

/-- A line that is read as it was written. -/
structure Clean (line : String) : Prop where
  noLineFeed : '\n' ∉ line.toList
  ending : ∃ c, line.toList.getLast? = some c ∧ isBlank c = false

theorem linesFrom_append {line : List UInt8} (start rest : List UInt8) (h : 0x0A ∉ line) :
    linesFrom start (line ++ 0x0A :: rest) = ended (line.reverse ++ start) :: lines rest := by
  induction line generalizing start with
  | nil => rw [List.nil_append, linesFrom, if_pos rfl]; rfl
  | cons b line ih =>
    have hb : b ≠ 0x0A := by
      intro he
      exact h (he ▸ List.mem_cons_self)
    rw [List.cons_append, linesFrom, if_neg hb, ih _ fun hm => h (List.mem_cons_of_mem _ hm),
      List.reverse_cons, List.append_assoc, List.singleton_append]

/-- A line that ends in no carriage return has no byte to lose. -/
theorem ended_utf8 {line : String} {c : Char} (hlast : line.toList.getLast? = some c)
    (hc : c ≠ '\r') : ended (utf8 line).reverse = utf8 line := by
  unfold ended
  split
  · rename_i rest hreverse
    exfalso
    have hsplit : encode line.toList = rest.reverse ++ [0x0D] := by
      rw [← utf8, ← List.reverse_reverse (utf8 line), hreverse, List.reverse_cons]
    obtain ⟨ds, hds, -⟩ := encode_eq_concat (by decide) hsplit
    rw [hds, List.getLast?_append] at hlast
    cases hlast
    exact hc rfl
  · exact List.reverse_reverse _

namespace Clean

variable {line : String}

theorem lines_cons (h : Clean line) (rest : List UInt8) :
    lines (utf8 line ++ 0x0A :: rest) = utf8 line :: lines rest := by
  obtain ⟨c, hlast, hc⟩ := h.ending
  have hbyte : 0x0A ∉ utf8 line := by
    intro hmem
    exact h.noLineFeed (mem_encode_ascii (by decide) hmem)
  have hne : c ≠ '\r' := by
    rintro rfl
    cases hc
  rw [lines, linesFrom_append [] rest hbyte, List.append_nil, ended_utf8 hlast hne]

theorem stripped_eq (h : Clean line) (number : Nat)
    (hmark : number = 1 → line.toList.head? ≠ some '\uFEFF') : stripped number line = line := by
  obtain ⟨c, hlast, hc⟩ := h.ending
  have hne : c ≠ '\r' := by
    rintro rfl
    cases hc
  have hback : (line.toList.reverse.dropWhile (· = '\r')).reverse = line.toList := by
    obtain ⟨front, hfront⟩ := List.getLast?_eq_some_iff.1 hlast
    rw [hfront, List.reverse_append, List.reverse_singleton, List.singleton_append,
      List.dropWhile_cons_of_neg (by simpa using hne), List.reverse_cons, List.reverse_reverse]
  have hfront : number = 1 → line.toList.dropWhile (· = '\uFEFF') = line.toList := by
    intro hn
    have := hmark hn
    cases hcs : line.toList with
    | nil => rfl
    | cons d ds =>
      rw [hcs, List.head?_cons] at this
      exact List.dropWhile_cons_of_neg (by simpa using this)
  simp only [stripped, hback]
  split
  · rename_i hn
    rw [hfront hn, String.ofList_toList]
  · exact String.ofList_toList

theorem not_blank (h : Clean line) : blank line = false := by
  obtain ⟨c, hlast, hc⟩ := h.ending
  rw [blank, List.all_eq_false]
  exact ⟨c, List.mem_of_getLast? hlast, by simp [hc]⟩

end Clean

/-! ## Rows -/

/-- The fields of a row that are found again in its line. -/
structure Writable (layout : Layout) (sep : Char) (front : List String) (last : String) :
    Prop where
  length : front.length + 1 = layout.fieldCount
  fits : ∀ f ∈ front, Fits sep f
  noLineFeed : '\n' ∉ last.toList
  ending : ∃ c, last.toList.getLast? = some c ∧ isBlank c = false

namespace Writable

variable {layout : Layout} {sep : Char} {front : List String} {last : String}

theorem clean (h : Writable layout sep front last) (hsep : sep ≠ '\n') :
    Clean (join sep (front ++ [last])) := by
  obtain ⟨c, hlast, hc⟩ := h.ending
  have hne : last.toList ≠ [] := by
    intro he
    rw [he] at hlast
    cases hlast
  refine ⟨?_, c, ?_, hc⟩
  · intro hmem
    rw [join, String.toList_ofList] at hmem
    rcases mem_joinChars hmem with hn | ⟨f, hf, hmem⟩
    · exact hsep hn.symm
    · obtain ⟨s, hs, rfl⟩ := List.mem_map.1 hf
      rcases List.mem_append.1 hs with hs | hs
      · exact (h.fits s hs).lineFeed hmem
      · rw [List.mem_singleton.1 hs] at hmem
        exact h.noLineFeed hmem
  · rw [join, String.toList_ofList, List.map_append, List.map_singleton,
      getLast?_joinChars sep _ hne]
    exact hlast

theorem split_eq (h : Writable layout sep front last) :
    layout.split sep (join sep (front ++ [last])) = front ++ [last] := by
  have hlen := h.length
  refine split_join ?_
  rw [List.map_append, List.map_singleton]
  refine cuttable_append_iff.2 ⟨?_, by rw [List.length_map]; omega, ?_⟩
  · intro f hf
    obtain ⟨s, hs, rfl⟩ := List.mem_map.1 hf
    exact (h.fits s hs).separator
  · intro hlt
    rw [List.length_map] at hlt
    omega

end Writable

/-- A written row is a record again, on every line but the first. -/
theorem item?_written {layout : Layout} {sep : Char} {front : List String} {last : String}
    (path : Path) {number : Nat} (h : Writable layout sep front last) (hsep : sep ≠ '\n')
    (hmin : layout.minFields ≤ layout.fieldCount) (hnumber : number ≠ 1) :
    item? path layout sep number (join sep (front ++ [last])) =
      some (.ok ⟨number, front ++ [last]⟩) := by
  have hclean := h.clean hsep
  have hstripped := hclean.stripped_eq number fun hn => absurd hn hnumber
  have hlen : ¬ (front ++ [last]).length < layout.minFields := by
    have := h.length
    rw [List.length_append, List.length_singleton]
    omega
  simp only [item?, hstripped, hclean.not_blank, h.split_eq]
  simp [hnumber]
  simpa using hlen

/-- The header gives no item on the first line. -/
theorem item?_header {layout : Layout} {sep : Char} {first : String} {front : List String}
    {last : String} (path : Path) (h : Writable layout sep (first :: front) last)
    (hsep : sep ≠ '\n') (hheader : layout.header.head? = some first)
    (hplain : ∀ c ∈ first.toList, isPlain c = true) (hne : first ≠ "") :
    item? path layout sep 1 (join sep (first :: front ++ [last])) = none := by
  have hclean := h.clean hsep
  have hmark : (join sep (first :: front ++ [last])).toList.head? ≠ some '\uFEFF' := by
    have hchars : first.toList ≠ [] := by
      intro he
      exact hne (by simpa using he)
    rw [join, String.toList_ofList, List.cons_append, List.map_cons,
      head?_joinChars sep _ hchars]
    intro hmark
    have := hplain _ (List.mem_of_mem_head? hmark)
    cases this
  have hstripped := hclean.stripped_eq 1 fun _ => hmark
  have hfirst : ((first :: front ++ [last]).head?.map trim) = layout.header.head? := by
    rw [hheader, List.cons_append, List.head?_cons, Option.map_some, trim_plain hplain]
  simp only [item?, hstripped, hclean.not_blank, h.split_eq, hfirst]
  rfl

/-! ## Whole files -/

/-- Rows as the records of a file whose line `number` is the first of them. -/
def numbered (number : Nat) : List (List String) → List Record
  | [] => []
  | fields :: rows => ⟨number, fields⟩ :: numbered (number + 1) rows

/-- Fields that end in one that no separator needs to follow. -/
def IsRow (layout : Layout) (sep : Char) (fields : List String) : Prop :=
  ∃ front last, fields = front ++ [last] ∧ Writable layout sep front last

theorem lines_rows {layout : Layout} {sep : Char} {rows : List (List String)}
    (hrows : ∀ fields ∈ rows, IsRow layout sep fields) (hsep : sep ≠ '\n') :
    lines (utf8 (String.join (rows.map fun fields => join sep fields ++ "\n"))) =
      rows.map fun fields => utf8 (join sep fields) := by
  induction rows with
  | nil => rfl
  | cons fields rows ih =>
    obtain ⟨front, last, rfl, h⟩ := hrows fields List.mem_cons_self
    have hfeed : utf8 "\n" = [0x0A] := rfl
    rw [List.map_cons, List.map_cons, String.join_cons, utf8_append, utf8_append, hfeed,
      List.append_assoc, List.singleton_append, (h.clean hsep).lines_cons,
      ih fun fields hf => hrows fields (List.mem_cons_of_mem _ hf)]

/-- The rows of a file as its records, after the header. -/
theorem itemsFrom_rows {layout : Layout} {sep : Char} (path : Path) {number : Nat}
    {rows : List (List String)} (hrows : ∀ fields ∈ rows, IsRow layout sep fields)
    (hsep : sep ≠ '\n') (hmin : layout.minFields ≤ layout.fieldCount) (hnumber : 1 < number) :
    itemsFrom path layout sep number (rows.map fun fields => utf8 (join sep fields)) =
      (numbered number rows).map .ok := by
  induction rows generalizing number with
  | nil => rfl
  | cons fields rows ih =>
    obtain ⟨front, last, rfl, h⟩ := hrows fields List.mem_cons_self
    rw [List.map_cons, itemsFrom, decode_utf8]
    dsimp only
    rw [item?_written path h hsep hmin (by omega),
      ih (fun fields hf => hrows fields (List.mem_cons_of_mem _ hf)) (by omega)]
    rfl

/-- A layout whose header is a row of names, told from other rows by its first one. -/
structure Layout.Proper (layout : Layout) : Prop where
  header : ∃ first middle last, layout.header = first :: middle ++ [last]
  plain : ∀ name ∈ layout.header, name ≠ "" ∧ ∀ c ∈ name.toList, isPlain c = true
  minFields : layout.minFields ≤ layout.fieldCount

theorem plainNames_of_all {names : List String}
    (h : names.all (fun name => !name.toList.isEmpty && name.toList.all isPlain) = true) :
    ∀ name ∈ names, name ≠ "" ∧ ∀ c ∈ name.toList, isPlain c = true := by
  intro name hname
  have hchecked := List.all_eq_true.1 h name hname
  rw [Bool.and_eq_true] at hchecked
  refine ⟨?_, plain_of_all hchecked.2⟩
  rintro rfl
  cases hchecked.1

theorem Layout.proper_trace : Layout.trace.Proper :=
  ⟨⟨"Action", ["SourceState", "ResultState", "TargetWidget", "Data", "StartTime", "EndTime",
    "Successful", "Exception"], "DeviceLogs", rfl⟩, plainNames_of_all (by decide +kernel),
    by decide⟩

theorem Layout.proper_widget : Layout.widget.Proper :=
  ⟨⟨"Id", ["Class", "ResourceId", "Package", "XPath", "Text", "Clickable", "LongClickable",
    "InputField", "Scrollable", "Parent"], "Bounds", rfl⟩, plainNames_of_all (by decide +kernel),
    by decide⟩

theorem Layout.proper_legacyWidget : Layout.legacyWidget.Proper :=
  ⟨proper_widget.header, proper_widget.plain, by decide⟩

theorem Layout.Proper.header_written {layout : Layout} (h : layout.Proper) {sep : Char}
    (path : Path) (hsep : isPlain sep = false) (hfeed : sep ≠ '\n') :
    Clean (join sep layout.header) ∧
      item? path layout sep 1 (join sep layout.header) = none := by
  obtain ⟨first, middle, last, hheader⟩ := h.header
  have hplain := h.plain
  have hcount : layout.fieldCount = (first :: middle).length + 1 := by
    rw [Layout.fieldCount, hheader, List.length_append, List.length_singleton]
  rw [hheader] at hplain
  obtain ⟨hne, hfirst⟩ := hplain first (by simp)
  obtain ⟨hlastne, hlast⟩ := hplain last (by simp)
  have hwritable : Writable layout sep (first :: middle) last := by
    refine ⟨hcount.symm, fun f hf => fits_plain hsep (hplain f (List.mem_append_left _ hf)).2,
      (fits_plain hsep hlast).lineFeed, ?_⟩
    cases hend : last.toList.getLast? with
    | none => exact absurd (List.getLast?_eq_none_iff.1 hend) (by simpa using hlastne)
    | some c => exact ⟨c, rfl, isBlank_of_isPlain (hlast c (List.mem_of_getLast? hend))⟩
  rw [hheader]
  exact ⟨hwritable.clean hfeed,
    item?_header path hwritable hfeed (by rw [hheader]; rfl) hfirst hne⟩

theorem openFile_fileText {files : Tree} {path : Path} {written layout : Layout} {sep : Char}
    {rows : List (List String)}
    (hfind : files.find path = .ok (.file (utf8 (fileText written sep rows))))
    (hheader : written.header = layout.header) (hproper : layout.Proper)
    (hrows : ∀ fields ∈ rows, IsRow layout sep fields) (hsep : isPlain sep = false)
    (hfeed : sep ≠ '\n') :
    openFile files path layout sep = .ok ((numbered 2 rows).map .ok) := by
  obtain ⟨hclean, hitem⟩ := hproper.header_written path hsep hfeed
  have hlines : lines (utf8 (fileText written sep rows)) =
      utf8 (join sep layout.header) :: rows.map fun fields => utf8 (join sep fields) := by
    have hbyte : utf8 "\n" = [0x0A] := rfl
    rw [fileText, hheader, List.map_cons, String.join_cons, utf8_append, utf8_append, hbyte,
      List.append_assoc, List.singleton_append, hclean.lines_cons, lines_rows hrows hfeed]
  rw [openFile, hfind]
  dsimp only
  rw [hlines, itemsFrom, decode_utf8]
  dsimp only
  rw [hitem]
  dsimp only
  rw [itemsFrom_rows path hrows hfeed hproper.minFields (by decide)]

theorem collect_ok (rs : List Record) : collect (rs.map .ok) = .ok rs := by
  induction rs with
  | nil => rfl
  | cons r rs ih => rw [List.map_cons, collect, ih]

theorem readAll_fileText {files : Tree} {path : Path} {written layout : Layout} {sep : Char}
    {rows : List (List String)}
    (hfind : files.find path = .ok (.file (utf8 (fileText written sep rows))))
    (hheader : written.header = layout.header) (hproper : layout.Proper)
    (hrows : ∀ fields ∈ rows, IsRow layout sep fields) (hsep : isPlain sep = false)
    (hfeed : sep ≠ '\n') :
    readAll files path layout sep = .ok (numbered 2 rows) := by
  rw [readAll, openFile_fileText hfind hheader hproper hrows hsep hfeed]
  exact collect_ok _

end Record
end ScreenGraph
