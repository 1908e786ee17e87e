import Mathlib.Tactic.Common
import ScreenGraph.Load.Survey
import ScreenGraph.Proofs.Record.Reading

/-!
# ScreenGraph.Proofs.Identity.Keys

What is digested of a widget, and what it says of the structural parts.

Each part is closed by a unit separator and nothing is escaped, so a separator inside a part looks
like the end of it. A key whose parts hold none shares its bytes with no other key, and two widgets
of which one has such a key have the same id only if the digest collides. A key with a separator in
a part can be parted in another way, into parts that a record can hold as well.

* `bytes_eq_iff`: the bytes stand for the characters.
* `Closed.eq_of_chars`: no other key has the characters of a closed one.
* `exists_of_not_closed`: another key for the characters of one that is not closed.
* `bytes_unambiguous`: the keys that the bytes determine.
* `bytes_ambiguous`: two rows of a state file that are taken for one widget.
-/

namespace ScreenGraph

open Text

namespace Text

theorem encode_inj {cs ds : List Char} : encode cs = encode ds ↔ cs = ds := by
  refine ⟨fun h => ?_, congrArg _⟩
  have hdecoded : Except.ok cs = (Except.ok ds : Except Utf8Error (List Char)) := by
    rw [← decodeFrom_encode 0 cs, h, decodeFrom_encode 0 ds]
  exact Except.ok.inj hdecoded

end Text

namespace Identity
namespace WidgetKey

/-- The character behind each part. -/
def unitSeparator : Char := '\x1F'

def parts (k : WidgetKey) : List String :=
  [k.className, k.resourceId, k.packageName, k.xpath]

/-- No part holds the character that is to close it. -/
def Closed (k : WidgetKey) : Prop :=
  ∀ part ∈ k.parts, unitSeparator ∉ part.toList

instance (k : WidgetKey) : Decidable k.Closed :=
  inferInstanceAs (Decidable (∀ part ∈ k.parts, unitSeparator ∉ part.toList))

/-- The structural texts of a widget fit into fields. They are written as they are. -/
structure Fits (sep : Char) (key : WidgetKey) : Prop where
  className : Text.Fits sep key.className
  resourceId : Text.Fits sep key.resourceId
  packageName : Text.Fits sep key.packageName
  xpath : Text.Fits sep key.xpath

theorem fits_iff {sep : Char} {k : WidgetKey} :
    k.Fits sep ↔ ∀ part ∈ k.parts, Text.Fits sep part := by
  simp only [parts, List.forall_mem_cons, List.not_mem_nil, false_imp_iff, implies_true, and_true]
  exact ⟨fun h => ⟨h.className, h.resourceId, h.packageName, h.xpath⟩,
    fun ⟨hclass, hresource, hpackage, hxpath⟩ => ⟨hclass, hresource, hpackage, hxpath⟩⟩

def chars (k : WidgetKey) : List Char :=
  k.className.toList ++ unitSeparator :: (k.resourceId.toList ++ unitSeparator ::
    (k.packageName.toList ++ unitSeparator :: (k.xpath.toList ++ [unitSeparator])))

theorem bytes_eq_encode (k : WidgetKey) : k.bytes = encode k.chars := by
  have hseparator : String.utf8EncodeChar unitSeparator = [0x1F] := by decide
  simp [bytes, chars, utf8, encode, hseparator]

theorem bytes_eq_iff {k k' : WidgetKey} : k.bytes = k'.bytes ↔ k.chars = k'.chars := by
  rw [bytes_eq_encode, bytes_eq_encode, encode_inj]

variable {k k' : WidgetKey}

/-- The characters tell whether a key is closed. -/
theorem closed_iff : k.Closed ↔ k.chars.count unitSeparator = 4 := by
  simp only [Closed, parts, List.forall_mem_cons, List.not_mem_nil, false_imp_iff, implies_true,
    and_true, ← List.count_eq_zero, chars, List.count_append, List.count_cons_self, List.count_nil]
  omega

theorem Closed.cut (h : k.Closed) :
    cutChars unitSeparator 4 k.chars = k.parts.map String.toList ++ [[]] := by
  simp only [Closed, parts, List.forall_mem_cons] at h
  obtain ⟨hclass, hresource, hpackage, hxpath, -⟩ := h
  rw [chars, cutChars_append _ _ _ hclass, cutChars_append _ _ _ hresource,
    cutChars_append _ _ _ hpackage, cutChars_append _ _ _ hxpath]
  rfl

theorem Closed.eq_of_chars (h : k.Closed) (hchars : k.chars = k'.chars) : k = k' := by
  have h' : k'.Closed := by
    rw [closed_iff, ← hchars, ← closed_iff]
    exact h
  have hcut : k.parts.map String.toList ++ [[]] = k'.parts.map String.toList ++ [[]] := by
    rw [← h.cut, hchars, h'.cut]
  obtain ⟨className, resourceId, packageName, xpath⟩ := k
  obtain ⟨className', resourceId', packageName', xpath'⟩ := k'
  simpa [parts, String.toList_inj] using hcut

/-! ## Keys that are not closed -/

/-- The separator inside a part can be taken for the end of it, and the one behind another part for
one inside. -/
theorem exists_of_not_closed (h : ¬ k.Closed) : ∃ k', k ≠ k' ∧ k.chars = k'.chars := by
  obtain ⟨className, resourceId, packageName, xpath⟩ := k
  simp only [Closed, parts, List.forall_mem_cons, List.not_mem_nil, false_imp_iff, implies_true,
    and_true, Classical.not_and_iff_not_or_not, Classical.not_not] at h
  have hlonger : ∀ {s : String} {a b : List Char}, s.toList = a ++ unitSeparator :: b →
      s ≠ String.ofList a ∧ s ≠ String.ofList b := by
    intro s a b hs
    have hlength := congrArg List.length hs
    rw [List.length_append, List.length_cons] at hlength
    constructor <;> rintro rfl <;> rw [String.toList_ofList] at hlength <;> omega
  rcases h with h | h | h | h <;> obtain ⟨a, b, hab⟩ := List.append_of_mem h
  · refine ⟨⟨.ofList a, .ofList b, resourceId,
      .ofList (packageName.toList ++ unitSeparator :: xpath.toList)⟩, fun he => ?_, ?_⟩
    · exact (hlonger hab).1 (congrArg WidgetKey.className he)
    · simp [chars, hab]
  · refine ⟨⟨className, .ofList a, .ofList b,
      .ofList (packageName.toList ++ unitSeparator :: xpath.toList)⟩, fun he => ?_, ?_⟩
    · exact (hlonger hab).1 (congrArg WidgetKey.resourceId he)
    · simp [chars, hab]
  · refine ⟨⟨className, resourceId, .ofList a, .ofList (b ++ unitSeparator :: xpath.toList)⟩,
      fun he => ?_, ?_⟩
    · exact (hlonger hab).1 (congrArg WidgetKey.packageName he)
    · simp [chars, hab]
  · refine ⟨⟨.ofList (className.toList ++ unitSeparator :: resourceId.toList), packageName,
      .ofList a, .ofList b⟩, fun he => ?_, ?_⟩
    · exact (hlonger hab).2 (congrArg WidgetKey.xpath he)
    · simp [chars, hab]

/-- Where the parts of one key fit, those of another with the same characters do. -/
theorem Fits.of_chars {sep : Char} (hfits : k.Fits sep) (hopen : ¬ k.Closed)
    (hchars : k.chars = k'.chars) : k'.Fits sep := by
  rw [fits_iff] at hfits ⊢
  have hseparator : sep ≠ unitSeparator := by
    rintro rfl
    exact hopen fun part hpart => (hfits part hpart).separator
  have hmem : ∀ c, c ≠ unitSeparator → ∀ k : WidgetKey,
      c ∈ k.chars ↔ ∃ part ∈ k.parts, c ∈ part.toList := by
    intro c hc k
    simp [chars, parts, hc]
  have hchar : ∀ c, c ≠ unitSeparator → (∀ part ∈ k.parts, c ∉ part.toList) →
      ∀ part ∈ k'.parts, c ∉ part.toList := by
    intro c hc hnone part hpart hin
    have hthere : c ∈ k.chars := hchars ▸ (hmem c hc k').2 ⟨part, hpart, hin⟩
    obtain ⟨part', hpart', hin'⟩ := (hmem c hc k).1 hthere
    exact hnone part' hpart' hin'
  intro part hpart
  exact ⟨hchar sep hseparator (fun p hp => (hfits p hp).separator) part hpart,
    hchar '\n' (by decide) (fun p hp => (hfits p hp).lineFeed) part hpart⟩

/-- A key is told from every other one by its bytes if and only if none of its parts holds a unit
separator. Then a widget with another key can have the same id only because the digest collides.
Otherwise there is another key with the same bytes, which fits into every record that the first
one fits into. -/
theorem bytes_unambiguous (k : WidgetKey) :
    (k.Closed → ∀ k', (k.bytes = k'.bytes ↔ k = k') ∧
      (k ≠ k' → k.id = k'.id →
        k.bytes ≠ k'.bytes ∧ fingerprint k.bytes = fingerprint k'.bytes)) ∧
    (¬ k.Closed → ∃ k', k ≠ k' ∧ k.bytes = k'.bytes ∧
      ∀ sep, k.Fits sep → k'.Fits sep) := by
  constructor
  · intro hclosed k'
    have hsame : k.bytes = k'.bytes ↔ k = k' := by
      rw [bytes_eq_iff]
      exact ⟨hclosed.eq_of_chars, congrArg chars⟩
    exact ⟨hsame, fun hne hid => ⟨fun hbytes => hne (hsame.1 hbytes), congrArg Ident.uuid hid⟩⟩
  · intro hopen
    obtain ⟨k', hne, hchars⟩ := exists_of_not_closed hopen
    exact ⟨k', hne, bytes_eq_iff.2 hchars, fun sep hfits => hfits.of_chars hopen hchars⟩

/-- A closed key against one that only has its separators in other places, and an open key. -/
theorem bytes_unambiguous_button :
    let button : WidgetKey := ⟨"Button", "ok", "app", "/b"⟩
    let shifted : WidgetKey := ⟨"But", "tonok", "app", "/b"⟩
    let broken : WidgetKey := ⟨"Button\x1Fok", "app", "", "/b"⟩
    button.Closed ∧ button ≠ shifted ∧ button.bytes ≠ shifted.bytes ∧
      ¬ broken.Closed ∧ ∃ k', broken ≠ k' ∧ broken.bytes = k'.bytes := by
  intro button shifted broken
  have hclosed : button.Closed := by decide
  have hopen : ¬ broken.Closed := by decide
  have hne : button ≠ shifted := by decide
  obtain ⟨hsame, -⟩ := (bytes_unambiguous button).1 hclosed shifted
  obtain ⟨k', hother, hbytes, -⟩ := (bytes_unambiguous broken).2 hopen
  exact ⟨hclosed, hne, fun h => hne (hsame.1 h), hopen, k', hother, hbytes⟩

end WidgetKey
end Identity

namespace Load

open Files Identity Record

/-- The structural parts that a row has. -/
def keyOf (r : Record) : WidgetKey :=
  ⟨r.field WidgetColumn.className, r.field WidgetColumn.resourceId,
    r.field WidgetColumn.packageName, r.field WidgetColumn.xpath⟩

/-- Two buttons, of which one has a unit separator in its class and the other in its resource. -/
def brokenRowFiles : Tree where
  cwd := ["work"]
  nodes := [
    (["work"], .directory),
    (["work", "s1.csv"], .file (utf8 <|
      "a;But\x1Fton;ok;app;/b;OK;true;;;;;1:1:2:2\n" ++
      "b;But;ton\x1Fok;app;/b;Cancel;true;;;;;3:3:4:4\n"))]

/-- Rows with different parts that are digested as the same bytes, and so have one id. -/
theorem bytes_ambiguous : ∃ r₁ r₂, readAll brokenRowFiles ⟨"s1.csv"⟩ .widget ';' = .ok [r₁, r₂] ∧
    keyOf r₁ ≠ keyOf r₂ ∧ (keyOf r₁).bytes = (keyOf r₂).bytes ∧ identify r₁ = identify r₂ := by
  have hread : readAll brokenRowFiles ⟨"s1.csv"⟩ .widget ';' = .ok [
      ⟨1, ["a", "But\x1Fton", "ok", "app", "/b", "OK", "true", "", "", "", "", "1:1:2:2"]⟩,
      ⟨2, ["b", "But", "ton\x1Fok", "app", "/b", "Cancel", "true", "", "", "", "",
        "3:3:4:4"]⟩] := by
    decide +kernel
  refine ⟨_, _, hread, by decide, ?_⟩
  have hbytes : (⟨"But\x1Fton", "ok", "app", "/b"⟩ : WidgetKey).bytes =
      (⟨"But", "ton\x1Fok", "app", "/b"⟩ : WidgetKey).bytes := by decide
  exact ⟨hbytes, congrArg (fun bytes => (⟨fingerprint bytes⟩ : WidgetId)) hbytes⟩

end Load
end ScreenGraph
