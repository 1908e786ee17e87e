import Mathlib.Data.List.DropRight
import Mathlib.Data.List.Forall2
import ScreenGraph.Proofs.Record.Edits

/-!
# ScreenGraph.Proofs.Record.Reader

A record file that is read item by item.

A reader takes lines until one of them gives an item, and is closed once the lines are used up or
one of them is not UTF-8. What it delivers is told from the content alone: cut at the line feeds,
without the carriage returns at the ends of lines and the marks at the start, each line that is
neither blank nor the header gives one item under its own number.

* `pieces_cons`, `pieces_encode`: a content cut at its line feeds.
* `itemsFrom_counted`: the items of the lines in front of some others.
* `next_left`, `delivers_iff`: what one call takes from a reader, and what all calls deliver.
* `reader_delivers`: what a content is read as.
-/

namespace ScreenGraph

open Files Text

/-! ## Pieces -/

section

variable {α : Type} [DecidableEq α] {d : α} {xs : List α}

/-- What stands between delimiters. Nothing stands behind a delimiter at the end. -/
def pieces (d : α) (xs : List α) : List (List α) :=
  let all := xs.splitOn d
  if all.getLast? = some [] then all.dropLast else all

theorem pieces_last (h : d ∉ xs) : pieces d xs = if xs = [] then [] else [xs] := by
  rw [pieces, List.splitOn_eq_singleton h]
  simp

theorem pieces_cons (rest : List α) (h : d ∉ xs) :
    pieces d (xs ++ d :: rest) = xs :: pieces d rest := by
  have hsplit : (xs ++ d :: rest).splitOn d = xs :: rest.splitOn d := by
    refine List.splitOnP_append_cons_of_forall_mem (fun x hx => ?_) d (by simp) rest
    simpa using fun he : x = d => h (he ▸ hx)
  obtain ⟨first, others, hrest⟩ : ∃ first others, rest.splitOn d = first :: others :=
    List.exists_cons_of_ne_nil (List.splitOnP_ne_nil _ _)
  simp only [pieces, hsplit, hrest, List.getLast?_cons_cons, List.dropLast_cons_cons]
  split <;> rfl

/-- Up to the first delimiter, and then on from there. -/
theorem pieces_induction {P : List α → Prop} (hlast : ∀ xs, d ∉ xs → P xs)
    (hcons : ∀ xs rest, d ∉ xs → P rest → P (xs ++ d :: rest)) (xs : List α) : P xs := by
  induction hn : xs.length using Nat.strongRecOn generalizing xs with
  | ind n ih =>
    by_cases hd : d ∈ xs
    · obtain ⟨front, rest, rfl, hfront⟩ := List.eq_append_cons_of_mem hd
      refine hcons front rest hfront (ih rest.length ?_ rest rfl)
      rw [← hn, List.length_append, List.length_cons]
      omega
    · exact hlast xs hd

end

theorem pieces_encode (cs : List Char) :
    pieces 0x0A (encode cs) = (pieces '\n' cs).map encode := by
  have hbyte : ∀ cs : List Char, '\n' ∉ cs → 0x0A ∉ encode cs :=
    fun cs hcs hmem => hcs (mem_encode_ascii (by decide) hmem)
  induction cs using pieces_induction (d := '\n') with
  | hlast cs hcs =>
    rw [pieces_last hcs, pieces_last (hbyte cs hcs)]
    cases cs with
    | nil => rfl
    | cons c cs =>
      have hne : encode (c :: cs) ≠ [] := by
        simp [encode, String.utf8EncodeChar_ne_nil]
      rw [if_neg hne, if_neg (List.cons_ne_nil c cs)]
      rfl
  | hcons cs rest hcs ih =>
    have hfeed : encode (cs ++ '\n' :: rest) = encode cs ++ 0x0A :: encode rest := by
      rw [encode_append]
      rfl
    rw [hfeed, pieces_cons _ (hbyte cs hcs), pieces_cons _ hcs, ih, List.map_cons]

namespace Record

/-! ## Lines -/

/-- The line that is taken from a piece: a carriage return at the end may be gone. -/
def Ends (piece line : List UInt8) : Prop :=
  piece = line ∨ piece = line ++ [0x0D]

theorem ended_ends (piece : List UInt8) : Ends piece (ended piece.reverse) := by
  unfold ended
  split
  · rename_i line hreverse
    right
    rw [← List.reverse_cons, ← hreverse, List.reverse_reverse]
  · left
    rw [List.reverse_reverse]

/-- A file has a line for each piece. -/
theorem lines_ends (content : List UInt8) :
    List.Forall₂ Ends (pieces 0x0A content) (lines content) := by
  induction content using pieces_induction (d := (0x0A : UInt8)) with
  | hlast line hline =>
    have hlines : lines line = if line = [] then [] else [line] := by
      have hall := linesFrom_noLineFeed_append [] [] hline
      rw [List.append_nil, List.append_nil, linesFrom, List.reverse_reverse] at hall
      rw [lines, hall]
      simp
    rw [pieces_last hline, hlines]
    split
    · exact .nil
    · exact .cons (.inl rfl) .nil
  | hcons line rest hline ih =>
    rw [pieces_cons _ hline, lines, linesFrom_append [] rest hline, List.append_nil]
    exact .cons (ended_ends line) ih

/-- What is left of the piece `number` without the carriage returns at its end, and without the
marks at its start if it is the first. -/
def bare (number : Nat) (piece : String) : String :=
  let cs := piece.toList.rdropWhile (· = '\r')
  String.ofList (if number = 1 then cs.dropWhile (· = '\uFEFF') else cs)

/-- It makes no difference whether a carriage return is lost before a line is stripped. -/
theorem decode_of_ends {piece : String} {line : List UInt8} (number : Nat)
    (h : Ends (utf8 piece) line) :
    ∃ text, decode line = .ok text ∧ stripped number text = bare number piece := by
  rcases h with rfl | h
  · exact ⟨piece, decode_utf8 piece, rfl⟩
  · obtain ⟨ds, hds, rfl⟩ := encode_eq_concat (by decide) h
    refine ⟨String.ofList ds, decode_eq_ok_iff.2 (by rw [utf8, String.toList_ofList]), ?_⟩
    rw [bare, hds, List.rdropWhile_concat_pos _ _ _ (by simp), stripped, String.toList_ofList]
    rfl

theorem decode_of_not_utf8 {piece line : List UInt8} (h : Ends piece line)
    (hpiece : ∀ text, utf8 text ≠ piece) : ∃ e, decode line = .error e := by
  cases hline : decode line with
  | error e => exact ⟨e, rfl⟩
  | ok text =>
    rw [decode_eq_ok_iff] at hline
    rcases h with rfl | rfl
    · exact absurd hline (hpiece text)
    · have hreturn : utf8 "\r" = [0x0D] := rfl
      refine absurd ?_ (hpiece (text ++ "\r"))
      rw [utf8_append, hline, hreturn]

/-! ## Items -/

section

variable (path : Path) (layout : Layout) (sep : Char)

/-- Whether a numbered line is neither blank nor the header. -/
def counts (line : Nat × String) : Bool :=
  !blank line.2 &&
    !decide (line.1 = 1 ∧ (layout.split sep line.2).head?.map trim = layout.header.head?)

/-- The bare lines from `number` on that count, under their numbers. -/
def counted (number : Nat) (pieces : List String) : List (Nat × String) :=
  ((pieces.zipIdx number).map fun (piece, i) => (i, bare i piece)).filter (counts layout sep)

/-- The fields of a line: joined they give it back, and none but the last of as many as there are
columns holds the separator. -/
structure SplitsInto (line : String) (fields : List String) : Prop where
  join : join sep fields = line
  cuttable : Cuttable sep (layout.fieldCount - 1) (fields.map String.toList)

/-- What is reported of a numbered line: its fields, or how many there are if they are too few. -/
inductive Reported : Nat × String → Item → Prop where
  | record {number : Nat} {line : String} {fields : List String}
    (hfields : SplitsInto layout sep line fields) (henough : layout.minFields ≤ fields.length) :
    Reported (number, line) (.ok ⟨number, fields⟩)
  | malformed {number : Nat} {line : String} {fields : List String}
    (hfields : SplitsInto layout sep line fields) (hfew : fields.length < layout.minFields) :
    Reported (number, line)
      (.error (.malformed layout.name path number layout.minFields fields.length))

/-- A line has just one split. -/
theorem splitsInto_iff {line : String} {fields : List String} :
    SplitsInto layout sep line fields ↔ layout.split sep line = fields := by
  constructor
  · rintro ⟨rfl, hcuttable⟩
    exact split_join hcuttable
  · rintro rfl
    exact ⟨join_split _ _ _, cuttable_split _ _ _⟩

theorem counted_cons (number : Nat) (piece : String) (ps : List String) :
    counted layout sep number (piece :: ps) =
      [(number, bare number piece)].filter (counts layout sep) ++
        counted layout sep (number + 1) ps := by
  rw [counted, counted, ← List.filter_append, List.zipIdx_cons]
  rfl

theorem item?_counted {number : Nat} {text piece : String}
    (h : stripped number text = bare number piece) :
    List.Forall₂ (Reported path layout sep)
      ([(number, bare number piece)].filter (counts layout sep))
      (item? path layout sep number text).toList := by
  rw [item?_eq, row?, h]
  generalize bare number piece = line
  split
  · rename_i hblank
    have hnot : counts layout sep (number, line) = false := by simp [counts, hblank]
    rw [List.filter_cons_of_neg (by simp [hnot])]
    exact .nil
  split
  · rename_i hheader
    have hnot : counts layout sep (number, line) = false := by simp [counts, hheader]
    rw [List.filter_cons_of_neg (by simp [hnot])]
    exact .nil
  · rename_i hblank hheader
    have hcounts : counts layout sep (number, line) = true := by
      simp only [counts, hheader, decide_false, Bool.not_false, Bool.and_true]
      simpa using hblank
    rw [List.filter_cons_of_pos hcounts, Option.map_some, Layout.item]
    refine .cons ?_ .nil
    split
    · rename_i henough
      exact .record ((splitsInto_iff layout sep).2 rfl) (of_decide_eq_true henough)
    · rename_i hfew
      exact .malformed ((splitsInto_iff layout sep).2 rfl)
        (Nat.lt_of_not_le fun hle => hfew (decide_eq_true hle))

/-- The items of a file whose first lines are UTF-8 are those of these lines and of what follows. -/
theorem itemsFrom_counted (front : List String) {tail ls : List (List UInt8)} (number : Nat)
    (h : List.Forall₂ Ends (front.map utf8 ++ tail) ls) :
    ∃ before rest, itemsFrom path layout sep number ls =
        before ++ itemsFrom path layout sep (number + front.length) rest ∧
      List.Forall₂ (Reported path layout sep) (counted layout sep number front) before ∧
      List.Forall₂ Ends tail rest := by
  induction front generalizing number ls with
  | nil => exact ⟨[], ls, rfl, .nil, h⟩
  | cons piece front ih =>
    rw [List.map_cons, List.cons_append] at h
    obtain ⟨line, ls, hends, hrest, rfl⟩ := List.forall₂_cons_left_iff.1 h
    obtain ⟨before, rest, hitems, hreported, htail⟩ := ih (number + 1) hrest
    obtain ⟨text, hdecode, hstripped⟩ := decode_of_ends number hends
    have hfirst := item?_counted path layout sep hstripped
    refine ⟨(item? path layout sep number text).toList ++ before, rest, ?_, ?_, htail⟩
    · have hnumber : number + (piece :: front).length = number + 1 + front.length := by
        rw [List.length_cons]
        omega
      rw [hnumber, List.append_assoc, ← hitems, itemsFrom]
      simp only [hdecode]
      cases item? path layout sep number text <;> rfl
    · rw [counted_cons]
      exact List.rel_append hfirst hreported

end

/-! ## Readers -/

/-- A file that is read item by item. -/
structure Reader where
  path : Path
  layout : Layout
  sep : Char
  /-- The lines that were not taken yet, unless the reader is closed. -/
  lines : Option (List (List UInt8))
  /-- The number of the line that was taken last. -/
  line : Nat

namespace Reader

def start (path : Path) (layout : Layout) (sep : Char) (content : List UInt8) : Reader :=
  ⟨path, layout, sep, some (Record.lines content), 0⟩

/-- Takes lines until one of them gives an item. -/
def nextFrom (r : Reader) (number : Nat) : List (List UInt8) → Reader × Option Item
  | [] => ({ r with lines := none, line := number }, none)
  | line :: rest =>
    match decode line with
    | .error e =>
      ({ r with lines := none, line := number }, some (.error (.io r.path (.utf8 e))))
    | .ok text =>
      match item? r.path r.layout r.sep (number + 1) text with
      | none => nextFrom r (number + 1) rest
      | some item => ({ r with lines := some rest, line := number + 1 }, some item)

/-- The next item, and none once the reader is closed. -/
def next (r : Reader) : Reader × Option Item :=
  match r.lines with
  | none => (r, none)
  | some lines => r.nextFrom r.line lines

/-- What is left to be delivered. -/
def left (r : Reader) : List Item :=
  match r.lines with
  | none => []
  | some lines => itemsFrom r.path r.layout r.sep (r.line + 1) lines

/-- What a reader delivers that is asked until it gives nothing. -/
inductive Delivers : Reader → List Item → Prop where
  | done {r r' : Reader} (h : r.next = (r', none)) : Delivers r []
  | more {r r' : Reader} {item : Item} {items : List Item} (h : r.next = (r', some item))
    (hrest : Delivers r' items) : Delivers r (item :: items)

theorem nextFrom_left (r : Reader) (number : Nat) (lines : List (List UInt8)) :
    (r.nextFrom number lines).2 =
        (itemsFrom r.path r.layout r.sep (number + 1) lines).head? ∧
      (r.nextFrom number lines).1.left =
        (itemsFrom r.path r.layout r.sep (number + 1) lines).tail := by
  induction lines generalizing number with
  | nil => exact ⟨rfl, rfl⟩
  | cons line rest ih =>
    unfold nextFrom itemsFrom
    cases decode line with
    | error e => exact ⟨rfl, rfl⟩
    | ok text =>
      dsimp only
      cases item? r.path r.layout r.sep (number + 1) text with
      | none => exact ih (number + 1)
      | some item => exact ⟨rfl, rfl⟩

theorem next_left (r : Reader) : r.next.2 = r.left.head? ∧ r.next.1.left = r.left.tail := by
  unfold next
  cases hlines : r.lines with
  | none => simp [left, hlines]
  | some lines =>
    simp only [left, hlines]
    exact r.nextFrom_left r.line lines

theorem delivers_iff {r : Reader} {items : List Item} : r.Delivers items ↔ items = r.left := by
  constructor
  · intro h
    induction h with
    | @done r r' h =>
      have hhead := r.next_left.1
      rw [h] at hhead
      exact (List.head?_eq_none_iff.1 hhead.symm).symm
    | @more r r' item items h _ ih =>
      obtain ⟨hhead, htail⟩ := r.next_left
      rw [h] at hhead htail
      rw [ih, htail]
      exact List.cons_head?_tail hhead.symm
  · intro h
    induction items generalizing r with
    | nil =>
      have hhead := r.next_left.1
      rw [← h] at hhead
      exact .done (Prod.ext rfl hhead)
    | cons item items ih =>
      obtain ⟨hhead, htail⟩ := r.next_left
      rw [← h] at hhead htail
      exact .more (Prod.ext rfl hhead) (ih htail.symm)

end Reader

/-! ## Contents -/

theorem collect_ok_iff {items : List Item} {rs : List Record} :
    collect items = .ok rs ↔ items = rs.map .ok := by
  constructor
  · intro h
    induction items generalizing rs with
    | nil =>
      cases h
      rfl
    | cons item items ih =>
      cases item with
      | error e => cases h
      | ok r =>
        unfold collect at h
        cases hrest : collect items with
        | error e => rw [hrest] at h; cases h
        | ok rs' =>
          rw [hrest] at h
          cases h
          rw [List.map_cons, ih hrest]
  · rintro rfl
    exact collect_ok rs

theorem collect_error_iff {items : List Item} {e : ReadError} :
    collect items = .error e ↔
      ∃ (rs : List Record) (rest : List Item), items = rs.map .ok ++ .error e :: rest := by
  constructor
  · intro h
    induction items with
    | nil => cases h
    | cons item items ih =>
      cases item with
      | error e' =>
        cases h
        exact ⟨[], items, rfl⟩
      | ok r =>
        unfold collect at h
        cases hrest : collect items with
        | error e' =>
          rw [hrest] at h
          cases h
          obtain ⟨rs, rest, hitems⟩ := ih hrest
          exact ⟨r :: rs, rest, by rw [hitems]; rfl⟩
        | ok rs => rw [hrest] at h; cases h
  · rintro ⟨rs, rest, rfl⟩
    induction rs with
    | nil => rfl
    | cons r rs ih => rw [List.map_cons, List.cons_append, collect, ih]

/-- A reader delivers one item for each line that counts, in order and under its own number. The
first line that is not UTF-8 ends the items with an error. Reading all of them gives the records,
or the first error if there is one. -/
theorem reader_delivers (path : Path) (layout : Layout) (sep : Char) (content : List UInt8) :
    ∃ items,
      (∀ delivered, (Reader.start path layout sep content).Delivers delivered ↔
        delivered = items) ∧
      (∀ text, content = utf8 text →
        List.Forall₂ (Reported path layout sep)
          (counted layout sep 1 ((pieces '\n' text.toList).map String.ofList)) items) ∧
      (∀ front bad rest, pieces 0x0A content = front.map utf8 ++ bad :: rest →
        (∀ text, utf8 text ≠ bad) →
        ∃ before failure, items = before ++ [.error (.io path failure)] ∧
          List.Forall₂ (Reported path layout sep) (counted layout sep 1 front) before) ∧
      ∀ files : Tree, files.find path = .ok (.file content) →
        openFile files path layout sep = .ok items ∧
        (∀ rs, readAll files path layout sep = .ok rs ↔ items = rs.map .ok) ∧
        ∀ e, readAll files path layout sep = .error e ↔
          ∃ (rs : List Record) (rest : List Item), items = rs.map .ok ++ .error e :: rest := by
  have hlines := lines_ends content
  refine ⟨itemsFrom path layout sep 1 (lines content), fun delivered => Reader.delivers_iff,
    fun text htext => ?_, fun front bad rest hpieces hbad => ?_, fun files hfound => ?_⟩
  · have hpieces : pieces 0x0A content =
        ((pieces '\n' text.toList).map String.ofList).map utf8 ++ [] := by
      rw [htext, utf8, pieces_encode, List.append_nil, List.map_map]
      refine List.map_congr_left fun cs _ => ?_
      rw [Function.comp_apply, utf8, String.toList_ofList]
    rw [hpieces] at hlines
    obtain ⟨before, rest, hitems, hreported, hrest⟩ :=
      itemsFrom_counted path layout sep _ 1 hlines
    cases hrest
    rw [hitems]
    simpa [itemsFrom] using hreported
  · rw [hpieces] at hlines
    obtain ⟨before, others, hitems, hreported, hothers⟩ :=
      itemsFrom_counted path layout sep front 1 hlines
    obtain ⟨line, others, hends, -, rfl⟩ := List.forall₂_cons_left_iff.1 hothers
    obtain ⟨e, hdecode⟩ := decode_of_not_utf8 hends hbad
    refine ⟨before, .utf8 e, ?_, hreported⟩
    rw [hitems, itemsFrom, hdecode]
  · have hopen : openFile files path layout sep =
        .ok (itemsFrom path layout sep 1 (lines content)) := by
      rw [openFile, hfound]
    refine ⟨hopen, fun rs => ?_, fun e => ?_⟩
    · rw [readAll, hopen]
      exact collect_ok_iff
    · rw [readAll, hopen]
      exact collect_error_iff

def pointLayout : Layout :=
  ⟨"point", ["Id", "X", "Y"], 3⟩

/-- A header behind a mark, a blank line, a point and the start of one, with carriage returns. -/
def pointPieces : List String :=
  ["\uFEFFId;X;Y\r", " ", "a;1;2;3\r\r", "b"]

/-- The points, a line that is not UTF-8, and one more point. -/
def pointContent : List UInt8 :=
  utf8 "\uFEFFId;X;Y\r\n \na;1;2;3\r\r\nb\n" ++ [0xFF, 0x0A] ++ utf8 "c;3;4\n"

def pointFiles : Tree where
  cwd := ["work"]
  nodes := [(["work"], .directory), (["work", "p"], .file pointContent)]

theorem reader_delivers_points :
    pieces 0x0A pointContent = pointPieces.map utf8 ++ [[0xFF], utf8 "c;3;4"] ∧
      (∀ text, utf8 text ≠ [0xFF]) ∧ pointFiles.find ⟨"p"⟩ = .ok (.file pointContent) ∧
      readAll pointFiles ⟨"p"⟩ pointLayout ';' = .error (.malformed "point" ⟨"p"⟩ 4 3 1) ∧
      ∃ before failure,
        (Reader.start ⟨"p"⟩ pointLayout ';' pointContent).Delivers
          (before ++ [.error (.io ⟨"p"⟩ failure)]) ∧
        before = [.ok ⟨3, ["a", "1", "2;3"]⟩, .error (.malformed "point" ⟨"p"⟩ 4 3 1)] := by
  obtain ⟨items, hdelivers, -, hbroken, hfiles⟩ :=
    reader_delivers ⟨"p"⟩ pointLayout ';' pointContent
  have hpieces : pieces 0x0A pointContent = pointPieces.map utf8 ++ [[0xFF], utf8 "c;3;4"] := by
    decide +kernel
  have hbad : ∀ text, utf8 text ≠ [0xFF] := by
    intro text htext
    have hdecode := decode_eq_ok_iff.2 htext
    cases hdecode
  have hfound : pointFiles.find ⟨"p"⟩ = .ok (.file pointContent) := rfl
  have hopen : openFile pointFiles ⟨"p"⟩ pointLayout ';' =
      .ok ([.ok ⟨3, ["a", "1", "2;3"]⟩, .error (.malformed "point" ⟨"p"⟩ 4 3 1)] ++
        [.error (.io ⟨"p"⟩ (.utf8 (.invalid 1 0)))]) := by decide +kernel
  obtain ⟨hitems, -, herror⟩ := hfiles pointFiles hfound
  obtain ⟨before, failure, hbefore, -⟩ := hbroken pointPieces _ _ hpieces hbad
  have hsame := Except.ok.inj (hitems.symm.trans hopen)
  refine ⟨hpieces, hbad, hfound, (herror _).2 ⟨[⟨3, ["a", "1", "2;3"]⟩], _, hsame⟩,
    before, failure, (hdelivers _).2 hbefore.symm, ?_⟩
  exact (List.append_inj' (hbefore.symm.trans hsame) rfl).1

end Record
end ScreenGraph
