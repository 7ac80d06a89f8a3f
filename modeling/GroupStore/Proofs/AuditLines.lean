import GroupStore.Proofs.Files
import GroupStore.Proofs.Output

/-!
# Audit lines can be read back

Events are appended to a file as lines of JSON.  Whatever texts an event has, line ends, quotes and
control characters among them, its line has no line end inside and denotes its fields.  So what was
appended falls into one line per event, in order, and says which events these were.

* `Audit.Event.ofJson?`, `Audit.entryOf?` — what a line says;
* `Audit.logged`, `Audit.splitOn_logged` — what events append, line by line;
* `World.log`, `World.log_content` — events that are reported to a file;
* `Audit.lines_unforgeable` — the file afterwards.
-/

namespace GroupStore

open TextOrder (bytes bytes_eq_flatMap)

/-! ### Bytes of one line -/

namespace Json

/-- The byte that ends a line stands for a line end and is part of no other character. -/
theorem newline_not_mem_encoded {c : Char} (other : c ≠ '\n') :
    ascii '\n' ∉ String.utf8EncodeChar c := by
  intro member
  rcases encoded_cases c with ⟨small, encoded⟩ | ⟨-, large⟩
  · rw [encoded, List.mem_singleton] at member
    have value : c.toNat = 10 := by
      have codeEq := congrArg UInt8.toNat member
      rw [UInt8.toNat_ofNat', Nat.mod_eq_of_lt (by omega)] at codeEq
      exact codeEq.symm
    exact other (Char.ext (UInt32.toNat_inj.mp value))
  · exact absurd (large _ member) (by decide)

theorem OneLine.newline_not_mem {s : String} (line : OneLine s) : ascii '\n' ∉ bytes s := by
  rw [bytes_eq_flatMap, List.mem_flatMap]
  rintro ⟨c, inside, member⟩
  refine newline_not_mem_encoded (fun isNewline => line ?_) member
  rw [← isNewline]
  exact inside

/-- The text of a string, or none for null. -/
def optional? : Json → Option (Option String)
  | null => some none
  | string s => some (some s)
  | _ => none

@[simp] theorem optional?_optional (s : Option String) : optional? (optional s) = some s := by
  cases s <;> rfl

@[simp] theorem sound_optional (s : Option String) : (optional s).Sound := by
  cases s with
  | none => exact .null
  | some s => exact .string s

end Json

/-! ### What a line says -/

@[simp] theorem StatementKind.ofLabel?_label (kind : StatementKind) :
    ofLabel? kind.label = some kind := by
  cases kind <;> decide +kernel

@[simp] theorem Consistency.ofLabel?_label (level : Consistency) :
    ofLabel? level.label = some level := by
  cases level <;> decide +kernel

namespace Audit

/-- The operation that a word names. -/
def Operation.ofLabel? (word : String) : Option Operation :=
  [start, stop, add, get, confirm, remove, getKeys, scan].find? (·.label == word)

@[simp] theorem Operation.ofLabel?_label (operation : Operation) :
    ofLabel? operation.label = some operation := by
  cases operation <;> decide +kernel

/-- The ending that a word names. -/
def Outcome.ofLabel? (word : String) : Option Outcome :=
  [ok, notFound, stale, error].find? (·.label == word)

@[simp] theorem Outcome.ofLabel?_label (outcome : Outcome) :
    ofLabel? outcome.label = some outcome := by
  cases outcome <;> decide +kernel

/-- The event of an object and its moment; the word under `event` tells which other fields there
are. -/
def Event.ofJson? (v : Json) : Option (Nat × Event) := do
  let word ← (v.field? "event").bind Json.string?
  let moment ← (v.field? "timestamp_ms").bind Json.counter?
  let table ← (v.field? "table").bind Json.string?
  if word = "statement_prepared" then
    let kind ← ((v.field? "kind").bind Json.string?).bind StatementKind.ofLabel?
    let text ← (v.field? "cql").bind Json.string?
    let consistency ← ((v.field? "consistency").bind Json.string?).bind Consistency.ofLabel?
    return (moment, .statement table kind text consistency)
  else if word = "repository_audit" then
    let operation ← ((v.field? "operation").bind Json.string?).bind Operation.ofLabel?
    let key ← (v.field? "aggregation_key").bind Json.optional?
    let id ← (v.field? "exchange_id").bind Json.optional?
    let outcome ← ((v.field? "outcome").bind Json.string?).bind Outcome.ofLabel?
    let detail ← (v.field? "detail").bind Json.optional?
    return (moment, .call table operation key id outcome detail)
  else none

theorem Event.ofJson?_toJson (e : Event) (moment : Nat) :
    ofJson? (e.toJson (some moment)) = some (moment, e) := by
  cases e <;> simp [ofJson?, toJson, momentField, Json.field?, Sorted.get?_cons, Json.string?,
    Json.counter?, Json.int]

/-- The text of an event denotes its object. -/
theorem Event.denoted?_text (e : Event) (moment : Nat) :
    Json.denoted? (e.toJson (some moment)).text = some (e.toJson (some moment)) := by
  cases e <;> exact Json.denoted?_object (by simp [momentField])

/-! ### Lines -/

/-- The byte at the end of a line. -/
def newline : UInt8 := Json.ascii '\n'

/-- The bytes of the line of an event before its end. -/
def lineBytes (entry : Nat × Event) : List UInt8 := bytes (entry.2.toJson (some entry.1)).text

/-- The moment and the event of a line: it is the text of one JSON object. -/
def entryOf? (line : List UInt8) : Option (Nat × Event) :=
  ((Json.Tree.ofBytes? line).bind Json.ofTreeExactly?).bind Event.ofJson?

theorem entryOf?_lineBytes (entry : Nat × Event) : entryOf? (lineBytes entry) = some entry := by
  have denoted := entry.2.denoted?_text entry.1
  rw [Json.denoted?] at denoted
  rw [entryOf?, lineBytes, denoted, Option.bind_some, Event.ofJson?_toJson]

theorem newline_not_mem_lineBytes (entry : Nat × Event) : newline ∉ lineBytes entry :=
  (Json.oneLine_text _).newline_not_mem

/-- What events append: a line each. -/
def logged (entries : List (Nat × Event)) : List UInt8 :=
  entries.flatMap fun entry => lineBytes entry ++ [newline]

/-- Cut at line ends, what was appended is the lines of the events, and nothing after the last. -/
theorem splitOn_logged (entries : List (Nat × Event)) :
    (logged entries).splitOn newline = entries.map lineBytes ++ [[]] := by
  induction entries with
  | nil => exact List.splitOn_nil newline
  | cons entry rest ih =>
    have first : ∀ b ∈ lineBytes entry, (b == newline) = false := by
      intro b member
      rw [beq_eq_false_iff_ne]
      rintro rfl
      exact newline_not_mem_lineBytes entry member
    have cut := List.splitOnP_append_cons_of_forall_mem first newline (beq_self_eq_true newline)
      (logged rest)
    have whole : logged (entry :: rest) = lineBytes entry ++ newline :: logged rest := by
      rw [logged, List.flatMap_cons, List.append_assoc]
      rfl
    rw [whole, List.map_cons, List.cons_append, ← ih]
    exact cut

/-- The lines of events say which events these are. -/
theorem entries_of_lines (entries : List (Nat × Event)) :
    (entries.map lineBytes).map entryOf? = entries.map some := by
  rw [List.map_map]
  exact List.map_congr_left fun entry _ => entryOf?_lineBytes entry

theorem logged_injective {entries others : List (Nat × Event)}
    (loggedEq : logged entries = logged others) : entries = others := by
  have lines := congrArg (List.splitOn newline) loggedEq
  rw [splitOn_logged, splitOn_logged] at lines
  have read := congrArg (List.map entryOf?) (List.append_cancel_right lines)
  rw [entries_of_lines, entries_of_lines] at read
  exact List.map_injective_iff.mpr (Option.some_injective _) read

end Audit

/-! ### Files -/

/-- Report events to a file, each at its moment. -/
def World.log (place : Place) : List (Nat × Audit.Event) → World → World
  | [], w => w
  | (moment, e) :: rest, w =>
    log place rest (record (.file place) e { w with systemTime := moment })

theorem Audit.toList_line (moment : Nat) (e : Audit.Event) :
    (e.line moment).toUTF8.toList = lineBytes (moment, e) ++ [newline] := by
  rw [Json.toList_eq]
  show bytes ((e.toJson (some moment)).text ++ "\n") = _
  rw [Json.bytes_append]
  rfl

/-- Reported events are appended to a plain file, and nothing else changes in the file tree. -/
theorem World.log_content {place : Place} (entries : List (Nat × Audit.Event)) {w : World}
    {content : ByteArray} (plain : w.files.at? place = some (.bytes content)) :
    ∃ added : ByteArray, added.toList = Audit.logged entries ∧
      (w.log place entries).files.at? place = some (.bytes (content ++ added)) ∧
      ∀ other ≠ place, (w.log place entries).files.at? other = w.files.at? other := by
  have below : place ≠ [] := by
    rintro rfl
    cases plain
  induction entries generalizing w content with
  | nil =>
    refine ⟨ByteArray.empty, Json.toList_eq _, ?_, fun _ _ => rfl⟩
    rw [ByteArray.append_empty]
    exact plain
  | cons entry rest ih =>
    obtain ⟨moment, e⟩ := entry
    let next : World := record (.file place) e { w with systemTime := moment }
    have files : next.files = w.files.put place (.bytes (content ++ (e.line moment).toUTF8)) := by
      show w.files.append place (e.line moment) = _
      rw [Files.append, plain]
    have first : next.files.at? place = some (.bytes (content ++ (e.line moment).toUTF8)) := by
      rw [files, Files.at?_put below, if_pos rfl]
    obtain ⟨added, bytes, after, others⟩ := ih first
    refine ⟨(e.line moment).toUTF8 ++ added, ?_, ?_, fun other apart => ?_⟩
    · rw [Json.toList_append, Audit.toList_line, bytes]
      rfl
    · rw [ByteArray.append_assoc] at after
      exact after
    · rw [World.log, others other apart, files, Files.at?_put below, if_neg apart]

/-- A log that could be opened was a plain file with the content that it has now, or there was no
file; nothing else has changed. -/
theorem Files.openLog?_plain {before opened : Files} {path : String} {place : Place}
    {prior : ByteArray} (found : before.openLog? path = some (place, opened))
    (plain : opened.at? place = some (.bytes prior)) :
    (before.at? place = some (.bytes prior) ∨ before.at? place = none ∧ prior = .empty) ∧
      ∀ other ≠ place, opened.at? other = before.at? other := by
  have below : place ≠ [] := by
    rintro rfl
    cases plain
  unfold Files.openLog? at found
  split at found
  · cases found
  · split at found
    · cases found
    · split at found
      · cases found
      · cases found
        exact ⟨.inl plain, fun _ _ => rfl⟩
      · rename_i nothing
        split at found
        · cases found
          rw [Files.at?_put below, if_pos rfl] at plain
          cases plain
          exact ⟨.inr ⟨nothing, rfl⟩, fun other apart => by rw [Files.at?_put below, if_neg apart]⟩
        · cases found

/-! ### The theorem -/

/-- Events are reported to a file that has been opened for appending.  Its prior content stays in
front.  What is appended falls at its line ends into one line for each event, in order; each is a
JSON object that says the moment and every field of its event.  Whoever appends the same bytes to
any file has reported the same events, and no other file is touched. -/
theorem Audit.lines_unforgeable {w : World} {path : String} {place : Place} {opened : Files}
    {prior : ByteArray} (found : w.files.openLog? path = some (place, opened))
    (plain : opened.at? place = some (.bytes prior)) (entries : List (Nat × Audit.Event)) :
    (w.files.at? place = some (.bytes prior) ∨ w.files.at? place = none ∧ prior = .empty) ∧
    ∃ added : ByteArray,
      (({ w with files := opened } : World).log place entries).files.at? place =
        some (.bytes (prior ++ added)) ∧
      (∃ lines, added.toList.splitOn newline = lines ++ [[]] ∧
        lines.map entryOf? = entries.map some) ∧
      (∀ (v : World) spot content others, v.files.at? spot = some (.bytes content) →
        (v.log spot others).files.at? spot = some (.bytes (content ++ added)) →
          others = entries) ∧
      ∀ other ≠ place, (({ w with files := opened } : World).log place entries).files.at? other =
        w.files.at? other := by
  obtain ⟨before, elsewhere⟩ := Files.openLog?_plain found plain
  obtain ⟨added, appended, after, others⟩ :=
    World.log_content entries (w := { w with files := opened }) plain
  refine ⟨before, added, after, ⟨entries.map lineBytes, ?_, ?_⟩, ?_, fun other apart => ?_⟩
  · rw [appended, splitOn_logged]
  · exact entries_of_lines entries
  · intro v spot content entries' isFile longer
    obtain ⟨added', appended', after', -⟩ := World.log_content entries' isFile
    rw [after'] at longer
    have whole := congrArg ByteArray.toList (Node.bytes.inj (Option.some.inj longer))
    rw [Json.toList_append, Json.toList_append] at whole
    have equal := List.append_cancel_left whole
    rw [appended, appended'] at equal
    exact logged_injective equal
  · exact (others other apart).trans (elsewhere other apart)

/-- A working directory with a file whose last line has not been ended. -/
def Audit.tornLog : Files := Files.fresh.put ["work", "audit.log"] (.bytes "torn".toUTF8)

/-- A failure whose group and detail look like the end of a line. -/
def Audit.forgery : Nat × Audit.Event :=
  (7, .call "results" .add (some "a\",\n") none .error (some "\\\r\n"))

/-- Two such failures are two lines after the torn one. -/
theorem Audit.lines_unforgeable_torn : ∃ added : ByteArray,
    ((World.fresh 0 0 tornLog).log ["work", "audit.log"] [forgery, forgery]).files.at?
        ["work", "audit.log"] = some (.bytes ("torn".toUTF8 ++ added)) ∧
      ∃ lines, added.toList.splitOn newline = lines ++ [[]] ∧
        lines.map entryOf? = [some forgery, some forgery] := by
  have found : (World.fresh 0 0 tornLog).files.openLog? "audit.log" =
      some (["work", "audit.log"], tornLog) := by decide +kernel
  have plain : tornLog.at? ["work", "audit.log"] = some (.bytes "torn".toUTF8) := by
    decide +kernel
  obtain ⟨-, added, after, lines, -⟩ := lines_unforgeable found plain [forgery, forgery]
  exact ⟨added, after, lines⟩

end GroupStore
