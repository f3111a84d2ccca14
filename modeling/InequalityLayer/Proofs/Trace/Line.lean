import InequalityLayer.Proofs.Text.Words
import InequalityLayer.Trace.Record
import Mathlib

/-!
Trace lines read back. A `TraceLine` is what a line shows of a record: the texts of its key and of its numbers, and the rest
as it is. The bracket ends the pass, and blanks end the position and the key. Each segment behind the key is known by the
letter behind its bar, which no later segment has (`Follows`), so the segments can be taken off one after the other,
whichever of them are there (`readSegment_segment`). Main statement: `line_reads_back`.
-/
namespace InequalityLayer
set_option autoImplicit false

structure TraceLine where
  pass : String
  index : ℕ
  dualKey : String
  violation : Option String
  multiplier : Option String
  active : Option Bool
  note : Option String
  deriving DecidableEq

namespace TraceLine

/-! ## Segments -/

section Segment

variable {β : Type}

/-- A bar and what is written behind it, if there is anything to write. -/
def segment (write : β → List Char) : Option β → List Char
  | none => []
  | some b => " | ".toList ++ write b

/-- A segment is taken off if it begins with one of its letters. -/
def readSegment (letters : List Char) (read : List Char → β × List Char) (cs : List Char) :
    Option β × List Char :=
  if cs[3]?.any (· ∈ letters) then
    let (b, rest) := read (cs.drop 3)
    (some b, rest)
  else (none, cs)

def Labelled (letters : List Char) (write : β → List Char) : Prop :=
  ∀ b, ∃ c ∈ letters, ∃ tail, write b = c :: tail

/-- Nothing, or a segment that begins with one of the letters. -/
def Follows (letters rest : List Char) : Prop :=
  rest = [] ∨ ∃ c ∈ letters, ∃ tail, rest = ' ' :: '|' :: ' ' :: c :: tail

variable {letters later rest : List Char} {write : β → List Char} {read : List Char → β × List Char} {x : Option β}

theorem Follows.endsWord (follows : Follows letters rest) : EndsWord rest := by
  obtain rfl | ⟨c, _, tail, rfl⟩ := follows
  · exact fun _ none => nomatch none
  · exact fun _ first => (Option.some.inj first).symm

theorem Follows.segment (labelled : Labelled letters write) (x : Option β) (follows : Follows later rest) :
    Follows (letters ++ later) (segment write x ++ rest) := by
  cases x with
  | none =>
    obtain empty | ⟨c, letter, tail⟩ := follows
    · exact .inl empty
    · exact .inr ⟨c, List.mem_append_right letters letter, tail⟩
  | some b =>
    obtain ⟨c, letter, tail, written⟩ := labelled b
    refine .inr ⟨c, List.mem_append_left later letter, tail ++ rest, ?_⟩
    rw [TraceLine.segment, written]
    rfl

theorem segment_map {γ : Type} (f : γ → β) (x : Option γ) :
    segment write (x.map f) = segment (fun c => write (f c)) x := by
  cases x <;> rfl

/-- A segment is read back whole; where it is left out, what stands there has the letter of a later one. -/
theorem readSegment_segment (labelled : Labelled letters write) (follows : Follows later rest)
    (apart : ∀ c ∈ later, c ∉ letters) (back : ∀ b ∈ x, read (write b ++ rest) = (b, rest)) :
    readSegment letters read (segment write x ++ rest) = (x, rest) := by
  cases x with
  | none =>
    rw [segment, List.nil_append, readSegment]
    obtain rfl | ⟨c, letter, tail, rfl⟩ := follows
    · rfl
    · rw [if_neg (by simpa using apart c letter)]
  | some b =>
    obtain ⟨c, letter, tail, written⟩ := labelled b
    have first : (" | ".toList ++ write b ++ rest)[3]? = some c := by
      rw [written]
      rfl
    have behind : (" | ".toList ++ write b ++ rest).drop 3 = write b ++ rest := rfl
    rw [segment, readSegment, first, behind, back b rfl, if_pos (by simpa using letter)]

end Segment

/-! ## Numbers, flags and notes -/

def writeNumber (label number : String) : List Char := label.toList ++ (alignRight 13 number).toList

def readNumber (label : String) (cs : List Char) : String × List Char :=
  let (number, rest) := takeWord (cs.drop label.toList.length)
  (String.ofList number, rest)

def writeFlag (active : Bool) : List Char := (if active then "active" else "inactive").toList

def readFlag (cs : List Char) : Bool × List Char :=
  if cs.head? = some 'a' then (true, cs.drop "active".length) else (false, cs.drop "inactive".length)

def writeNote (note : String) : List Char := "note ".toList ++ note.toList

/-- All that stands behind the label belongs to the note. -/
def readNote (cs : List Char) : String × List Char := (String.ofList (cs.drop "note ".length), [])

theorem labelled_violation : Labelled ['g'] (writeNumber "g ") := fun _ => ⟨'g', by decide, _, rfl⟩

theorem labelled_multiplier : Labelled ['l'] (writeNumber "lambda ") := fun _ => ⟨'l', by decide, _, rfl⟩

theorem labelled_flag : Labelled ['a', 'i'] writeFlag
  | true => ⟨'a', by decide, _, rfl⟩
  | false => ⟨'i', by decide, _, rfl⟩

theorem labelled_note : Labelled ['n'] writeNote := fun _ => ⟨'n', by decide, _, rfl⟩

theorem readNumber_writeNumber (label : String) {number : String} {rest : List Char} (word : IsWord number.toList)
    (ends : EndsWord rest) : readNumber label (writeNumber label number ++ rest) = (number, rest) := by
  rw [readNumber, writeNumber, List.append_assoc, List.drop_left, takeWord_alignRight 13 word ends]
  exact congrArg (·, rest) String.ofList_toList

theorem readFlag_writeFlag (active : Bool) (rest : List Char) :
    readFlag (writeFlag active ++ rest) = (active, rest) := by
  cases active <;> rfl

theorem readNote_writeNote (note : String) : readNote (writeNote note ++ []) = (note, []) := by
  have behind : (writeNote note ++ []).drop "note ".length = note.toList := List.append_nil _
  rw [readNote, behind, String.ofList_toList]

/-! ## Lines -/

/-- What stands behind the dual key. -/
def segments (l : TraceLine) : List Char :=
  segment (writeNumber "g ") l.violation ++ (segment (writeNumber "lambda ") l.multiplier ++
    (segment writeFlag l.active ++ (segment writeNote l.note ++ [])))

def readSegments (cs : List Char) : Option String × Option String × Option Bool × Option String :=
  let (violation, rest) := readSegment ['g'] (readNumber "g ") cs
  let (multiplier, rest) := readSegment ['l'] (readNumber "lambda ") rest
  let (active, rest) := readSegment ['a', 'i'] readFlag rest
  let (note, _) := readSegment ['n'] readNote rest
  (violation, multiplier, active, note)

def write (l : TraceLine) : List Char :=
  '[' :: (l.pass.toList ++ (']' :: ' ' :: '#' :: ((alignRight 4 l.index.repr).toList ++
    (" | dual ".toList ++ (l.dualKey.toList ++ l.segments)))))

def read (cs : List Char) : TraceLine :=
  let (pass, rest) := (cs.drop "[".length).span (· != ']')
  let (index, rest) := takeWord (rest.drop "] #".length)
  let (dualKey, rest) := takeWord (rest.drop " | dual ".length)
  let (violation, multiplier, active, note) := readSegments rest
  { pass := String.ofList pass
    index := Nat.ofDigitChars 10 index 0
    dualKey := String.ofList dualKey
    violation, multiplier, active, note }

/-- The pass has no bracket that could end it, and key and numbers have no blank. -/
structure IsReadable (l : TraceLine) : Prop where
  pass : ']' ∉ l.pass.toList
  dualKey : IsWord l.dualKey.toList
  violation : ∀ number ∈ l.violation, IsWord number.toList
  multiplier : ∀ number ∈ l.multiplier, IsWord number.toList

section Readable

variable {l : TraceLine} (readable : l.IsReadable)
include readable

/-- The segments are taken off from the front, each with all that follows it still in place. -/
theorem readSegments_segments :
    readSegments l.segments = (l.violation, l.multiplier, l.active, l.note) ∧ EndsWord l.segments := by
  have afterNote : Follows [] [] := .inl rfl
  have afterFlag := afterNote.segment labelled_note l.note
  have afterMultiplier := afterFlag.segment labelled_flag l.active
  have afterViolation := afterMultiplier.segment labelled_multiplier l.multiplier
  have afterKey : Follows _ l.segments := afterViolation.segment labelled_violation l.violation
  have violation : readSegment ['g'] (readNumber "g ") l.segments = (l.violation, _) :=
    readSegment_segment labelled_violation afterViolation (by simp) fun number here =>
      readNumber_writeNumber "g " (readable.violation number here) afterViolation.endsWord
  have multiplier := readSegment_segment labelled_multiplier afterMultiplier (by simp) fun number here =>
    readNumber_writeNumber "lambda " (readable.multiplier number here) afterMultiplier.endsWord
  have active := readSegment_segment (x := l.active) labelled_flag afterFlag (by simp) fun active _ =>
    readFlag_writeFlag active _
  have note := readSegment_segment (x := l.note) labelled_note afterNote (by simp) fun note _ => readNote_writeNote note
  refine ⟨?_, afterKey.endsWord⟩
  simp only [readSegments, violation, multiplier, active, note]

theorem read_write : read l.write = l := by
  obtain ⟨segments, ends⟩ := readSegments_segments readable
  let afterIndex := " | dual ".toList ++ (l.dualKey.toList ++ l.segments)
  let afterPass := ']' :: ' ' :: '#' :: ((alignRight 4 l.index.repr).toList ++ afterIndex)
  have pass : (l.write.drop "[".length).span (· != ']') = (l.pass.toList, afterPass) :=
    span_absent readable.pass fun _ first => (Option.some.inj first).symm
  have index : takeWord (afterPass.drop "] #".length) = (Nat.toDigits 10 l.index, afterIndex) := by
    have blank : EndsWord afterIndex := fun _ first => (Option.some.inj first).symm
    rw [← Nat.toList_repr]
    exact takeWord_alignRight 4 (Nat.toList_repr ▸ isWord_toDigits l.index) blank
  have dualKey : takeWord (afterIndex.drop " | dual ".length) = (l.dualKey.toList, l.segments) :=
    takeWord_append readable.dualKey ends
  simp only [read, pass, index, dualKey, segments, String.ofList_toList, Nat.ofDigitChars_ten_toDigits]

end Readable

end TraceLine

/-! ## Records -/

namespace TraceRecord

variable {α : Type} [NumberText α]

/-- What the line of a record shows. -/
def shown (r : TraceRecord α) : TraceLine where
  pass := r.pass
  index := r.index
  dualKey := r.dualKey.text
  violation := r.violation.map NumberText.sixPlaces
  multiplier := r.multiplier.map NumberText.sixPlaces
  active := r.active
  note := r.note

theorem intercalate_cons (separator first : List Char) (later : List (List Char)) :
    separator.intercalate (first :: later) = first ++ later.flatMap (separator ++ ·) := by
  induction later generalizing first with
  | nil => simp
  | cons second later ih => rw [List.intercalate_cons_cons, ih, List.flatMap_cons, List.append_assoc, List.append_assoc]

theorem flatMap_segment {β : Type} (write : β → String) (x : Option β) :
    ((x.map write).toList.map String.toList).flatMap (" | ".toList ++ ·) =
      TraceLine.segment (fun b => (write b).toList) x := by
  cases x with
  | none => rfl
  | some b => exact List.flatMap_singleton ..

theorem toList_line (r : TraceRecord α) : r.line.toList = r.shown.write := by
  rw [line, String.toList_intercalate, List.map_cons, List.map_cons, intercalate_cons, List.flatMap_cons, segments]
  simp only [List.map_append, List.flatMap_append, flatMap_segment, String.toList_append, List.append_assoc]
  have opening (rest : List Char) : "[".toList ++ rest = '[' :: rest := rfl
  have closing (rest : List Char) : "] #".toList ++ rest = ']' :: ' ' :: '#' :: rest := rfl
  have dual (rest : List Char) : " | ".toList ++ ("dual ".toList ++ rest) = " | dual ".toList ++ rest := rfl
  rw [opening, closing, dual, Nat.toString_eq_repr, TraceLine.write, TraceLine.segments, List.append_nil, shown,
    TraceLine.segment_map, TraceLine.segment_map]
  rfl

theorem isWord_of_mem_map {x : Option Float} : ∀ number ∈ x.map NumberText.sixPlaces, IsWord number.toList := by
  intro number here
  obtain ⟨v, _, rfl⟩ := Option.mem_map.mp here
  exact isWord_sixPlaces v

theorem read_line {r : TraceRecord Float} (unbracketed : ']' ∉ r.pass.toList) :
    TraceLine.read r.line.toList = r.shown := by
  rw [toList_line]
  exact TraceLine.read_write ⟨unbracketed, r.dualKey.isWord_text, isWord_of_mem_map, isWord_of_mem_map⟩

/-- A pass name without a bracket can be read back from a line, with everything behind it. So two such lines
are equal exactly if the records agree on all that is written: on pass, position, text of the key, flag and note, and on the
two numbers as far as six places tell them apart. -/
theorem line_reads_back (r : TraceRecord Float) (unbracketed : ']' ∉ r.pass.toList) :
    TraceLine.read r.line.toList = r.shown ∧
    ∀ s : TraceRecord Float, ']' ∉ s.pass.toList →
      (r.line = s.line ↔
        r.pass = s.pass ∧ r.index = s.index ∧ r.dualKey.text = s.dualKey.text ∧
        r.violation.map NumberText.sixPlaces = s.violation.map NumberText.sixPlaces ∧
        r.multiplier.map NumberText.sixPlaces = s.multiplier.map NumberText.sixPlaces ∧
        r.active = s.active ∧ r.note = s.note) := by
  refine ⟨read_line unbracketed, fun s also_unbracketed => ?_⟩
  have lines : r.line = s.line ↔ r.shown = s.shown := by
    constructor
    · intro same
      rw [← read_line unbracketed, same, read_line also_unbracketed]
    · intro same
      rw [← String.toList_inj, toList_line, toList_line, same]
  rw [lines, shown, shown, TraceLine.mk.injEq]

/-- The key reads `|1`, and the note holds what could begin a segment. -/
def barTagged (violation multiplier : Option Float) : TraceRecord Float where
  pass := "kkt"
  index := 12345
  dualKey := ⟨0x7c00000000000001⟩
  violation := violation
  multiplier := multiplier
  active := some true
  note := some "a | note b"

/-- The tenth place of a violation is not seen, but a multiplier is told from a violation. -/
theorem line_reads_back_barTagged :
    ']' ∉ "kkt".toList ∧
    TraceLine.read (barTagged (some 0.5) none).line.toList =
      ⟨"kkt", 12345, "|1", some "5.000000e-1", none, some true, some "a | note b"⟩ ∧
    (barTagged (some 0.5) none).line = (barTagged (some 0.5000000001) none).line ∧
    (barTagged (some 0.5) none).line ≠ (barTagged none (some 0.5)).line := by
  have unbracketed : ']' ∉ "kkt".toList := by decide
  obtain ⟨reads, tells⟩ := line_reads_back (barTagged (some 0.5) none) unbracketed
  refine ⟨unbracketed, reads.trans (by decide +kernel), (tells _ unbracketed).mpr ?_, mt (tells _ unbracketed).mp ?_⟩
  · decide +kernel
  · decide +kernel

/-- With a bracket in its name, a pass can hold a whole line of another one. -/
example :
    ({ pass := "a", index := 1, dualKey := ⟨0⟩, note := some "[b] #   2 | dual 0" } : TraceRecord Float).line =
      ({ pass := "a] #   1 | dual 0 | note [b", index := 2, dualKey := ⟨0⟩ } : TraceRecord Float).line := by
  decide +kernel

end TraceRecord

end InequalityLayer
