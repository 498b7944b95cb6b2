import Mathlib.Data.List.Basic

/-!
# Comma-separated values

A reader of comma-separated values is a machine that takes one character at a
time.  Fields end at commas and records at line feeds, with or without a
carriage return before them; a field that begins with a quote ends at the next
quote that is not doubled, and everything in between belongs to it.

The texts a writer may produce are the derivations of a small grammar: a field
is written bare or in quotes, fields are joined by commas and records by line
feeds.  The reader gives back what the derivation is of.
-/

namespace TmsApi.Core.Csv

/-- The quote character. -/
def quote : Char := '\x22'

/-- Where the reader is. -/
inductive Mode where
  /-- At the beginning of a field. -/
  | start
  | bare
  /-- After a carriage return outside of quotes. -/
  | carriage
  | quoted
  /-- After a quote in a quoted field. -/
  | closing
  /-- After a carriage return that follows a quoted field. -/
  | closingCarriage
deriving DecidableEq

/-- The reader, with the field, the record and the records read so far. -/
structure Reader where
  mode : Mode
  field : List Char
  record : List (List Char)
  records : List (List (List Char))
deriving DecidableEq

namespace Reader

def push (r : Reader) (c : Char) (mode : Mode) : Reader :=
  { r with mode := mode, field := r.field ++ [c] }

def endField (r : Reader) : Reader :=
  ⟨.start, [], r.record ++ [r.field], r.records⟩

def endRecord (r : Reader) : Reader :=
  ⟨.start, [], [], r.records ++ [r.record ++ [r.field]]⟩

/-- A character outside of quotes; a quote may not stand there. -/
def bareStep (r : Reader) (c : Char) : Option Reader :=
  if c = ',' then some r.endField
  else if c = '\n' then some r.endRecord
  else if c = '\r' then some { r with mode := .carriage }
  else if c = quote then none
  else some (r.push c .bare)

/-- A character, in any mode. -/
def step (r : Reader) (c : Char) : Option Reader :=
  match r.mode with
  | .start =>
      if c = quote then some { r with mode := .quoted } else r.bareStep c
  | .bare => r.bareStep c
  | .carriage =>
      -- without a line feed the carriage return was a character of the field
      if c = '\n' then some r.endRecord else (r.push '\r' .bare).bareStep c
  | .quoted =>
      if c = quote then some { r with mode := .closing }
      else some (r.push c .quoted)
  | .closing =>
      if c = quote then some (r.push c .quoted)
      else if c = ',' then some r.endField
      else if c = '\n' then some r.endRecord
      else if c = '\r' then some { r with mode := .closingCarriage }
      else none
  | .closingCarriage => if c = '\n' then some r.endRecord else none

/-- The records at the end of the text; a last line feed starts none. -/
def finish (r : Reader) : Option (List (List (List Char))) :=
  match r.mode with
  | .start => if r.record = [] then some r.records else some r.endRecord.records
  | .bare | .closing => some r.endRecord.records
  | .carriage => some (r.push '\r' .bare).endRecord.records
  | .quoted | .closingCarriage => none

/-- The reader at the beginning of a record. -/
def between (records : List (List (List Char))) : Reader :=
  ⟨.start, [], [], records⟩

end Reader

/-- The records of a text, unless its quotes are misplaced. -/
def parse (text : List Char) : Option (List (List (List Char))) :=
  (text.foldlM Reader.step (.between [])).bind Reader.finish

/-! ## The texts of a writer -/

/-- Quotes within a text, doubled. -/
def double (text : List Char) : List Char :=
  text.flatMap fun c => if c = quote then [quote, quote] else [c]

/-- The ways to write a field. -/
inductive Field : List Char → List Char → Prop where
  | bare (text : List Char)
      (plain : ∀ c ∈ text, c ≠ ',' ∧ c ≠ '\n' ∧ c ≠ quote) : Field text text
  | quoted (text : List Char) : Field text (quote :: double text ++ [quote])

/-- The ways to write a record; the last field has no carriage return. -/
inductive Record : List (List Char) → List Char → Prop where
  | last {text code : List Char} (field : Field text code)
      (noReturn : ∀ c ∈ text, c ≠ '\r') : Record [text] code
  | cons {text code : List Char} {texts : List (List Char)} {line : List Char}
      (field : Field text code) (rest : Record texts line) :
      Record (text :: texts) (code ++ ',' :: line)

/-- The ways to write some records, the last of which is not empty. -/
inductive File : List (List (List Char)) → List Char → Prop where
  | last {texts : List (List Char)} {line : List Char}
      (record : Record texts line) (nonempty : texts ≠ [[]]) : File [texts] line
  | cons {texts : List (List Char)} {line : List Char}
      {records : List (List (List Char))} {lines : List Char}
      (record : Record texts line) (rest : File records lines) :
      File (texts :: records) (line ++ '\n' :: lines)

/-! ## The reader on these texts -/

namespace Reader

variable {text : List Char} {record : List (List Char)}
  {records : List (List (List Char))} {r : Reader}

/-- The reader is in a bare field, of which it has read a text. -/
inductive Bare (record : List (List Char)) (records : List (List (List Char))) :
    List Char → Reader → Prop where
  | start : Bare record records [] ⟨.start, [], record, records⟩
  | bare (text : List Char) :
      Bare record records text ⟨.bare, text, record, records⟩
  | carriage (text : List Char) :
      Bare record records (text ++ ['\r']) ⟨.carriage, text, record, records⟩

/-- The reader is where a field may end, and has read its text. -/
inductive Pending (record : List (List Char))
    (records : List (List (List Char))) : List Char → Reader → Prop where
  | bare {text : List Char} {r : Reader} (inBare : Bare record records text r) :
      Pending record records text r
  | closing (text : List Char) :
      Pending record records text ⟨.closing, text, record, records⟩

/-- A character that ends no bare field is read into it. -/
theorem Bare.step (inBare : Bare record records text r) {c : Char}
    (noComma : c ≠ ',') (noFeed : c ≠ '\n') (noQuote : c ≠ quote) :
    ∃ next, r.step c = some next ∧ Bare record records (text ++ [c]) next := by
  by_cases isReturn : c = '\r'
  · subst isReturn
    cases inBare with
    | start => exact ⟨_, rfl, .carriage []⟩
    | bare => exact ⟨_, rfl, .carriage text⟩
    | carriage front => exact ⟨_, rfl, .carriage (front ++ ['\r'])⟩
  · cases inBare with
    | start =>
        refine ⟨_, ?_, .bare [c]⟩
        simp [Reader.step, bareStep, push, *]
    | bare =>
        refine ⟨_, ?_, .bare (text ++ [c])⟩
        simp [Reader.step, bareStep, push, *]
    | carriage front =>
        refine ⟨_, ?_, .bare (front ++ ['\r'] ++ [c])⟩
        simp [Reader.step, bareStep, push, *]

theorem Bare.run (inBare : Bare record records text r) {code : List Char}
    (plain : ∀ c ∈ code, c ≠ ',' ∧ c ≠ '\n' ∧ c ≠ quote) :
    ∃ next, code.foldlM Reader.step r = some next ∧
      Bare record records (text ++ code) next := by
  induction code generalizing text r with
  | nil => exact ⟨r, rfl, by rwa [List.append_nil]⟩
  | cons c code ih =>
      obtain ⟨noComma, noFeed, noQuote⟩ := plain c List.mem_cons_self
      obtain ⟨middle, first, inMiddle⟩ := inBare.step noComma noFeed noQuote
      obtain ⟨next, rest, inNext⟩ := ih inMiddle fun d member =>
        plain d (List.mem_cons_of_mem _ member)
      refine ⟨next, ?_, ?_⟩
      · rw [List.foldlM_cons, first]
        exact rest
      · rwa [List.append_assoc] at inNext

/-- Doubled quotes keep the reader within a quoted field. -/
theorem run_double (code : List Char) :
    (double code).foldlM Reader.step ⟨.quoted, text, record, records⟩ =
      some ⟨.quoted, text ++ code, record, records⟩ := by
  induction code generalizing text with
  | nil => rw [List.append_nil]; rfl
  | cons c code ih =>
      have one : (if c = quote then [quote, quote] else [c]).foldlM Reader.step
          ⟨.quoted, text, record, records⟩ =
            some ⟨.quoted, text ++ [c], record, records⟩ := by
        by_cases isQuote : c = quote
        · subst isQuote
          rfl
        · simp [isQuote, Reader.step, push]
      unfold double at ih ⊢
      rw [List.flatMap_cons, List.foldlM_append, one, Option.bind_eq_bind,
        Option.bind_some, ih, List.append_assoc]
      rfl

/-- A field of the grammar is read as its text. -/
theorem run_field {code : List Char} (field : Field text code) :
    ∃ next, code.foldlM Reader.step ⟨.start, [], record, records⟩ = some next ∧
      Pending record records text next := by
  cases field with
  | bare plain =>
      obtain ⟨next, read, inBare⟩ := Bare.start.run plain
      exact ⟨next, read, .bare inBare⟩
  | quoted =>
      refine ⟨_, ?_, .closing text⟩
      have opened : Reader.step ⟨.start, [], record, records⟩ quote =
          some ⟨.quoted, [], record, records⟩ := rfl
      have closed : Reader.step ⟨.quoted, text, record, records⟩ quote =
          some ⟨.closing, text, record, records⟩ := rfl
      rw [List.cons_append, List.foldlM_cons, opened, Option.bind_eq_bind,
        Option.bind_some, List.foldlM_append, run_double]
      exact closed

theorem Pending.comma (pending : Pending record records text r) :
    r.step ',' = some ⟨.start, [], record ++ [text], records⟩ := by
  cases pending with
  | closing => rfl
  | bare inBare => cases inBare <;> rfl

/-- A carriage return that ends a bare field would be lost at its end. -/
theorem Pending.feed (pending : Pending record records text r)
    (noReturn : ∀ c ∈ text, c ≠ '\r') :
    r.step '\n' = some (between (records ++ [record ++ [text]])) := by
  cases pending with
  | closing => rfl
  | bare inBare =>
      cases inBare with
      | start => rfl
      | bare => rfl
      | carriage front =>
          exact absurd rfl (noReturn '\r' (List.mem_append_right _
            (List.mem_singleton.mpr rfl)))

theorem Pending.finish (pending : Pending record records text r)
    (noReturn : ∀ c ∈ text, c ≠ '\r') (nonempty : record ++ [text] ≠ [[]]) :
    r.finish = some (records ++ [record ++ [text]]) := by
  cases pending with
  | closing => rfl
  | bare inBare =>
      cases inBare with
      | start =>
          have earlier : record ≠ [] := by
            rintro rfl
            exact nonempty rfl
          exact if_neg earlier
      | bare => rfl
      | carriage front =>
          exact absurd rfl (noReturn '\r' (List.mem_append_right _
            (List.mem_singleton.mpr rfl)))

/-- A record of the grammar is read up to the end of its last field. -/
theorem run_record {texts : List (List Char)} {line : List Char}
    (written : Record texts line) :
    ∃ next front last,
      line.foldlM Reader.step ⟨.start, [], record, records⟩ = some next ∧
        texts = front ++ [last] ∧ (∀ c ∈ last, c ≠ '\r') ∧
          Pending (record ++ front) records last next := by
  induction written generalizing record with
  | @last text code field noReturn =>
      obtain ⟨next, read, pending⟩ := run_field field
      exact ⟨next, [], text, read, rfl, noReturn, by rwa [List.append_nil]⟩
  | @cons text code texts line field _ ih =>
      obtain ⟨middle, read, pending⟩ := @run_field _ record records _ field
      obtain ⟨next, front, last, rest, rfl, noReturn, ended⟩ :=
        @ih (record ++ [text])
      refine ⟨next, text :: front, last, ?_, rfl, noReturn, ?_⟩
      · rw [List.foldlM_append, read, Option.bind_eq_bind, Option.bind_some,
          List.foldlM_cons, pending.comma]
        exact rest
      · rwa [List.append_assoc] at ended

end Reader

/-- The reader returns the records that were written. -/
theorem parse_file {records : List (List (List Char))} {text : List Char}
    (written : File records text) : parse text = some records := by
  have from_ : ∀ before, (text.foldlM Reader.step (.between before)).bind
      Reader.finish = some (before ++ records) := by
    induction written with
    | @last texts line record nonempty =>
        intro before
        obtain ⟨next, front, last, read, rfl, noReturn, pending⟩ :=
          Reader.run_record record
        unfold Reader.between
        rw [read, Option.bind_some, pending.finish noReturn nonempty]
        rfl
    | @cons texts line records lines record _ ih =>
        intro before
        obtain ⟨next, front, last, read, rfl, noReturn, pending⟩ :=
          Reader.run_record record
        have ended := pending.feed noReturn
        unfold Reader.between
        rw [List.foldlM_append, read, Option.bind_eq_bind, Option.bind_some,
          List.foldlM_cons, ended, Option.bind_eq_bind, Option.bind_some, ih,
          List.append_assoc]
        rfl
  exact from_ []

end TmsApi.Core.Csv
