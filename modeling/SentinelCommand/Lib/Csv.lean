import Mathlib.Data.List.Basic

/-
  Comma-separated values as RFC 4180 has them, read one
  character at a time: records end with CR LF, a field in
  quotes may hold any text with its quotes doubled, and any
  other field any text without quotes, commas, CR and LF.

  The grammar has no record without fields, so what an empty
  line reads as is the reader's choice.

  Key definitions include:
    * `Csv.Reader`, `Csv.feed`, `Csv.finish`
    * `Csv.read`, `Csv.readChunks`
    * `Csv.Spelled`

  Key theorems include:
    * `Csv.readChunks_eq`
    * `Csv.feeds_spelled`
    * `Csv.feeds_fields`
-/

--------------------
-- Reader
--------------------

namespace Csv

abbrev Field : Type :=
  List Char

abbrev Record : Type :=
  List Field

def quote : Char := Char.ofNat 34

def carriageReturn : Char := Char.ofNat 13

def lineFeed : Char := Char.ofNat 10

inductive Mode where
  | start
  | bare
  | quoted
  | closed
  | returned
  deriving DecidableEq, Repr

structure Reader where
  mode : Mode
  field : Field
  record : Record
  records : List Record
  deriving DecidableEq, Repr

/- Before the next field of a record. -/
def Reader.before
    (record : Record)
    (records : List Record) : Reader where
  mode := .start
  field := []
  record := record
  records := records

section Reading

variable (blank : Record)

/- The record that ends where a field does. -/
def Reader.ended (reader : Reader) : Record :=
  if reader.mode = .start ∧ reader.record = [] then blank
  else reader.record ++ [reader.field]

/- A character behind a field. -/
def behind (reader : Reader) (c : Char) : Option Reader :=
  if c = ',' then
    some (.before (reader.record ++ [reader.field])
      reader.records)
  else if c = carriageReturn then
    some
      { reader with
        mode := .returned
        record := reader.ended blank }
  else
    none

def feed (reader : Reader) (c : Char) : Option Reader :=
  match reader.mode with
  | .start =>
      if c = quote then
        some { reader with mode := .quoted }
      else if c = ',' ∨ c = carriageReturn then
        behind blank reader c
      else if c = lineFeed then
        none
      else
        some { reader with mode := .bare, field := [c] }
  | .bare =>
      if c = quote ∨ c = lineFeed then
        none
      else if c = ',' ∨ c = carriageReturn then
        behind blank reader c
      else
        some { reader with field := reader.field ++ [c] }
  | .quoted =>
      if c = quote then
        some { reader with mode := .closed }
      else
        some { reader with field := reader.field ++ [c] }
  | .closed =>
      if c = quote then
        some
          { reader with
            mode := .quoted
            field := reader.field ++ [c] }
      else
        behind blank reader c
  | .returned =>
      if c = lineFeed then
        some (.before [] (reader.records ++ [reader.record]))
      else
        none

/- The line break after the last record may be left out. -/
def finish (reader : Reader) : Option (List Record) :=
  match reader.mode with
  | .start =>
      if reader.record = [] then some reader.records
      else
        some (reader.records ++ [reader.record ++ [reader.field]])
  | .bare =>
      some (reader.records ++ [reader.record ++ [reader.field]])
  | .closed =>
      some (reader.records ++ [reader.record ++ [reader.field]])
  | .quoted => none
  | .returned => none

def feeds (reader : Reader) (text : List Char) : Option Reader :=
  text.foldlM (feed blank) reader

def read (text : List Char) : Option (List Record) :=
  (feeds blank (.before [] []) text).bind finish

/- The text as it comes in. -/
def readChunks (chunks : List (List Char)) : Option (List Record) :=
  (chunks.foldlM (feeds blank) (.before [] [])).bind finish

variable {blank}

theorem feeds_append
    (reader : Reader)
    (xs ys : List Char) :
    feeds blank reader (xs ++ ys) =
      (feeds blank reader xs).bind
        (fun next => feeds blank next ys) :=
  List.foldlM_append

theorem feeds_nil (reader : Reader) :
    feeds blank reader [] = some reader :=
  rfl

theorem feeds_cons
    (reader : Reader)
    (c : Char)
    (rest : List Char) :
    feeds blank reader (c :: rest) =
      (feed blank reader c).bind
        (fun next => feeds blank next rest) :=
  List.foldlM_cons

/- Where a text is cut makes no difference. -/
theorem readChunks_eq (chunks : List (List Char)) :
    readChunks blank chunks = read blank chunks.flatten := by
  have hFeeds :
      ∀ reader : Reader,
        chunks.foldlM (feeds blank) reader =
          feeds blank reader chunks.flatten := by
    induction chunks with
    | nil => exact fun _ => rfl
    | cons chunk rest ih =>
        intro reader
        rw [List.foldlM_cons, List.flatten_cons, feeds_append]
        exact congrArg _ (funext ih)
  rw [readChunks, read, hFeeds]

end Reading

end Csv

--------------------
-- Written Fields
--------------------

namespace Csv

/- A character that needs no quotes. -/
def Plain (c : Char) : Prop :=
  c ≠ ',' ∧ c ≠ quote ∧ c ≠ carriageReturn ∧ c ≠ lineFeed

def doubled (field : Field) : List Char :=
  field.flatMap (fun c => if c = quote then [c, c] else [c])

/- The spellings of a field. -/
inductive Spelled : Field → List Char → Prop where
  | bare
      {field : Field}
      (hPlain : ∀ c ∈ field, Plain c) :
      Spelled field field
  | quoted (field : Field) :
      Spelled field (quote :: doubled field ++ [quote])

section Written

variable {blank : Record}
variable {record : Record}
variable {records : List Record}

theorem feeds_bare
    {rest : Field}
    (hPlain : ∀ c ∈ rest, Plain c)
    (field : Field) :
    feeds blank ⟨.bare, field, record, records⟩ rest =
      some ⟨.bare, field ++ rest, record, records⟩ := by
  induction rest generalizing field with
  | nil => rw [feeds_nil, List.append_nil]
  | cons c rest ih =>
      rw [List.forall_mem_cons] at hPlain
      rcases hPlain with ⟨⟨hComma, hQuote, hCr, hLf⟩, hRest⟩
      have hNext :
          feed blank ⟨.bare, field, record, records⟩ c =
            some ⟨.bare, field ++ [c], record, records⟩ := by
        rw [feed]
        dsimp only
        rw [if_neg (not_or.mpr ⟨hQuote, hLf⟩),
          if_neg (not_or.mpr ⟨hComma, hCr⟩)]
      rw [feeds_cons, hNext, Option.bind_some, ih hRest,
        List.append_assoc, List.singleton_append]

theorem feeds_doubled
    (rest field : Field) :
    feeds blank ⟨.quoted, field, record, records⟩
        (doubled rest) =
      some ⟨.quoted, field ++ rest, record, records⟩ := by
  induction rest generalizing field with
  | nil =>
      rw [doubled, List.flatMap_nil, feeds_nil,
        List.append_nil]
  | cons c rest ih =>
      have hNext :
          feeds blank ⟨.quoted, field, record, records⟩
              (if c = quote then [c, c] else [c]) =
            some ⟨.quoted, field ++ [c], record, records⟩ := by
        split_ifs with hQuote
        · rw [hQuote]
          rfl
        · rw [feeds_cons, feed]
          dsimp only
          rw [if_neg hQuote]
          rfl
      rw [doubled, List.flatMap_cons, feeds_append, hNext,
        Option.bind_some]
      rw [doubled] at ih
      rw [ih, List.append_assoc, List.singleton_append]

/- The reader behind a field that it has read. -/
def Behind
    (blank record : Record)
    (records : List Record)
    (field : Field)
    (reader : Reader) : Prop :=
  (∀ c, c = ',' ∨ c = carriageReturn →
      feed blank reader c = behind blank reader c) ∧
    reader.field = field ∧ reader.record = record ∧
    reader.records = records ∧
    (reader.mode = .start → field = [])

theorem feeds_spelled
    (blank record : Record)
    (records : List Record)
    {field : Field}
    {text : List Char}
    (hSpelled : Spelled field text) :
    ∃ reader,
      feeds blank (.before record records) text =
          some reader ∧
        Behind blank record records field reader ∧
        (reader.mode = .start → text = []) := by
  cases hSpelled with
  | bare hPlain =>
      cases field with
      | nil =>
          refine ⟨.before record records, rfl,
            ⟨?_, rfl, rfl, rfl, fun _ => rfl⟩, fun _ => rfl⟩
          rintro c (rfl | rfl)
          · rfl
          · rfl
      | cons c rest =>
          rw [List.forall_mem_cons] at hPlain
          rcases hPlain with ⟨⟨hComma, hQuote, hCr, hLf⟩, hRest⟩
          have hNext :
              feed blank (.before record records) c =
                some ⟨.bare, [c], record, records⟩ := by
            rw [feed, Reader.before]
            dsimp only
            rw [if_neg hQuote,
              if_neg (not_or.mpr ⟨hComma, hCr⟩), if_neg hLf]
          refine ⟨⟨.bare, c :: rest, record, records⟩, ?_,
            ⟨?_, rfl, rfl, rfl, nofun⟩, nofun⟩
          · rw [feeds_cons, hNext, Option.bind_some,
              feeds_bare hRest, List.singleton_append]
          · rintro d (rfl | rfl)
            · rfl
            · rfl
  | quoted =>
      refine ⟨⟨.closed, field, record, records⟩, ?_,
        ⟨?_, rfl, rfl, rfl, nofun⟩, nofun⟩
      · have hOpen :
            feed blank (.before record records) quote =
              some ⟨.quoted, [], record, records⟩ := rfl
        rw [List.cons_append, feeds_cons, hOpen,
          Option.bind_some, feeds_append, feeds_doubled,
          List.nil_append]
        rfl
      · rintro c (rfl | rfl)
        · rfl
        · rfl

/- One line: fields between commas, then CR LF. -/
def line (texts : List (List Char)) : List Char :=
  [','].intercalate texts ++ [carriageReturn, lineFeed]

/- The line behind the fields that were read of it. -/
theorem feeds_fields
    {fields : Record}
    {texts : List (List Char)}
    (hSpelled : List.Forall₂ Spelled fields texts)
    (hSome : fields ≠ [])
    (hLone : record ≠ [] ∨ texts ≠ [[]]) :
    feeds blank (.before record records) (line texts) =
      some (.before [] (records ++ [record ++ fields])) := by
  induction hSpelled generalizing record with
  | nil => exact absurd rfl hSome
  | @cons field text fields texts hField hRest ih =>
      rcases feeds_spelled blank record records hField with
        ⟨reader, hFeeds, ⟨hFeed, hText, hRecord, hRecords, _⟩,
          hStart⟩
      cases hRest with
      | nil =>
          have hEnded :
              reader.ended blank = record ++ [field] := by
            rw [Reader.ended, hRecord, hText, if_neg]
            rintro ⟨hMode, hEmpty⟩
            rcases hLone with h | h
            · exact h hEmpty
            · exact h (by rw [hStart hMode])
          have hReturn :
              feed blank reader carriageReturn =
                some ⟨.returned, field, record ++ [field],
                  records⟩ := by
            rw [hFeed _ (Or.inr rfl), behind,
              if_neg (by decide), if_pos rfl, hEnded, hText,
              hRecords]
          rw [line, List.intercalate_singleton, feeds_append,
            hFeeds, Option.bind_some, feeds_cons, hReturn]
          rfl
      | @cons next following fields texts hNext hMore =>
          have hComma :
              feed blank reader ',' =
                some (.before (record ++ [field]) records) := by
            rw [hFeed _ (Or.inl rfl), behind, if_pos rfl,
              hRecord, hText, hRecords]
          have hLater : record ++ [field] ≠ [] :=
            List.append_ne_nil_of_right_ne_nil _
              (List.cons_ne_nil field [])
          have hAfter := @ih (record ++ [field])
            (List.cons_ne_nil _ _) (Or.inl hLater)
          rw [line] at hAfter
          rw [line, List.intercalate_cons_cons,
            List.append_assoc, List.append_assoc,
            feeds_append, hFeeds, Option.bind_some,
            List.singleton_append, feeds_cons, hComma,
            Option.bind_some, hAfter, List.append_assoc,
            List.singleton_append]

theorem finish_before :
    finish (.before [] records) = some records :=
  rfl

end Written

end Csv
