import Mathlib.Data.List.Forall2
import SentinelCommand.Lib.Csv
import SentinelCommand.Lib.Utf8
import SentinelCommand.Text

/-
  The CSV downloads of the three audit surfaces: cells are
  made inert, rows are written as the interpreter's writer
  does, and the text leaves in chunks as the query goes on.

  Key definitions include:
    * `CsvExport.Cell.rendered`, `CsvExport.writeRow`
    * `CsvExport.Chunker`, `CsvExport.next`

  Key theorems include:
    * `CsvExport.feeds_writeRow`
    * `CsvExport.streamCsvResponse_exact`
-/

--------------------
-- Rows
--------------------

namespace SentinelCommand

namespace CsvExport

open Csv

inductive Cell where
  | text (value : List Char)
  | raw (value : List Char)
  deriving DecidableEq, Repr

def formulaPrefixes : List Char :=
  ['=', '+', '-', '@', Char.ofNat 9, Char.ofNat 13]

def apostrophe : Char := Char.ofNat 39

def Cell.rendered : Cell → List Char
| .raw value => value
| .text value =>
    if value.head?.any (formulaPrefixes.contains ·) then
      apostrophe :: value
    else
      value

def needsQuotes (single : Bool) (field : List Char) : Bool :=
  (single && field.isEmpty) ||
    field.any (fun c =>
      c == ',' || c == quote || c == carriageReturn ||
        c == lineFeed)

def quotedText (field : List Char) : List Char :=
  quote ::
    field.flatMap (fun ch =>
      (if ch = quote then [quote] else []) ++ [ch]) ++ [quote]

def fieldText (single : Bool) (cell : Cell) : List Char :=
  let field := cell.rendered
  if needsQuotes single field then quotedText field else field

/- The loop over the cells, from an index on. -/
def writeCells (single : Bool) : Nat → List Cell → List Char
| _, [] => []
| index, cell :: rest =>
    (if index > 0 then [','] else []) ++
      fieldText single cell ++
      writeCells single (index + 1) rest

def writeRow
    (out : List Char)
    (cells : List Cell) : List Char :=
  out ++ writeCells (cells.length = 1) 0 cells ++
    [carriageReturn, lineFeed]

--------------------
-- Chunks
--------------------

open Text

variable {E : Type}

def chunkTargetBytes : Nat :=
  8 * 1024

/- How a chunk came to its end. -/
inductive Stop (E : Type) where
  | full
  | ended
  | failed (err : E)

structure Filled (E : Type) where
  buf : List Char
  stop : Stop E
  rows : List (Except E (List Cell))

/- The loop that fills one chunk. -/
def fill
    (buf : List Char) :
    List (Except E (List Cell)) → Filled E
| [] =>
    if utf8Len buf < chunkTargetBytes then
      ⟨buf, .ended, []⟩
    else
      ⟨buf, .full, []⟩
| row :: rest =>
    if utf8Len buf < chunkTargetBytes then
      match row with
      | .ok cells => fill (writeRow buf cells) rest
      | .error err => ⟨buf, .failed err, rest⟩
    else
      ⟨buf, .full, row :: rest⟩

structure Chunker (E : Type) where
  pending : Option (List UInt8)
  rows : List (Except E (List Cell))
  done : Bool

abbrev Item (E : Type) : Type :=
  Except E (List UInt8)

/- One item of the body, and the state behind it. -/
def next (state : Chunker E) : Option (Item E × Chunker E) :=
  match state.pending with
  | some chunk => some (.ok chunk, { state with pending := none })
  | none =>
      if state.done then
        none
      else
        let filled := fill [] state.rows
        match filled.stop with
        | .failed err =>
            some (.error err, ⟨none, filled.rows, true⟩)
        | .ended =>
            if filled.buf = [] then
              none
            else
              some (.ok (Utf8.encode filled.buf),
                ⟨none, filled.rows, true⟩)
        | .full =>
            some (.ok (Utf8.encode filled.buf),
              ⟨none, filled.rows, false⟩)

/- What is left to do before the body ends. -/
def Chunker.left (state : Chunker E) : Nat :=
  (if state.pending.isSome then 1 else 0) +
    (if state.done then 0 else state.rows.length + 1)

theorem fill_full
    {buf : List Char}
    (hFull : ¬utf8Len buf < chunkTargetBytes)
    (rows : List (Except E (List Cell))) :
    fill buf rows = ⟨buf, .full, rows⟩ := by
  cases rows with
  | nil => exact if_neg hFull
  | cons row rest => exact if_neg hFull

theorem fill_nil
    {buf : List Char}
    (hSmall : utf8Len buf < chunkTargetBytes) :
    fill buf ([] : List (Except E (List Cell))) =
      ⟨buf, .ended, []⟩ :=
  if_pos hSmall

theorem fill_ok
    {buf : List Char}
    (hSmall : utf8Len buf < chunkTargetBytes)
    (cells : List Cell)
    (rest : List (Except E (List Cell))) :
    fill buf (.ok cells :: rest) =
      fill (writeRow buf cells) rest :=
  if_pos hSmall

theorem fill_error
    {buf : List Char}
    (hSmall : utf8Len buf < chunkTargetBytes)
    (err : E)
    (rest : List (Except E (List Cell))) :
    fill buf (.error err :: rest) = ⟨buf, .failed err, rest⟩ :=
  if_pos hSmall

theorem length_fill_le
    (buf : List Char)
    (rows : List (Except E (List Cell))) :
    (fill buf rows).rows.length ≤ rows.length := by
  induction rows generalizing buf with
  | nil =>
      by_cases hSmall : utf8Len buf < chunkTargetBytes
      · apply Nat.le_of_eq
        rw [fill_nil hSmall]
      · apply Nat.le_of_eq
        rw [fill_full hSmall]
  | cons row rest ih =>
      by_cases hSmall : utf8Len buf < chunkTargetBytes
      · cases row with
        | ok cells =>
            rw [fill_ok hSmall]
            exact Nat.le_succ_of_le (ih (writeRow buf cells))
        | error err =>
            rw [fill_error hSmall]
            exact Nat.le_succ rest.length
      · apply Nat.le_of_eq
        rw [fill_full hSmall]

theorem utf8Len_nil_lt : utf8Len [] < chunkTargetBytes := by
  decide

/- A full chunk has taken at least one row. -/
theorem length_fill_lt
    {rows : List (Except E (List Cell))}
    (hFull : (fill [] rows).stop = .full) :
    (fill [] rows).rows.length < rows.length := by
  cases rows with
  | nil =>
      rw [fill_nil utf8Len_nil_lt] at hFull
      exact absurd hFull nofun
  | cons row rest =>
      cases row with
      | ok cells =>
          rw [fill_ok utf8Len_nil_lt]
          exact Nat.lt_succ_of_le
            (length_fill_le (writeRow [] cells) rest)
      | error err =>
          rw [fill_error utf8Len_nil_lt] at hFull
          exact absurd hFull nofun

theorem left_next
    {state after : Chunker E}
    {item : Item E}
    (hNext : next state = some (item, after)) :
    after.left < state.left := by
  rcases state with ⟨pending, rows, done⟩
  rw [next] at hNext
  cases pending with
  | some chunk =>
      cases hNext
      simp [Chunker.left]
  | none =>
      cases done with
      | true => exact absurd hNext nofun
      | false =>
          dsimp only at hNext
          rw [if_neg Bool.false_ne_true] at hNext
          cases hStop : (fill [] rows).stop with
          | failed err =>
              rw [hStop] at hNext
              cases hNext
              simp [Chunker.left]
          | ended =>
              rw [hStop] at hNext
              dsimp only at hNext
              split_ifs at hNext
              cases hNext
              simp [Chunker.left]
          | full =>
              have hLess := length_fill_lt hStop
              rw [hStop] at hNext
              cases hNext
              simp [Chunker.left, hLess]

/- The body: items until there are no more. -/
def items (state : Chunker E) : List (Item E) :=
  match _hNext : next state with
  | none => []
  | some (item, after) => item :: items after
termination_by state.left
decreasing_by exact left_next _hNext

--------------------
-- The Body
--------------------

theorem items_none
    {state : Chunker E}
    (hNext : next state = none) :
    items state = [] := by
  rw [items]
  split
  · rfl
  · rename_i hSome
    rw [hNext] at hSome
    exact absurd hSome nofun

theorem items_some
    {state after : Chunker E}
    {item : Item E}
    (hNext : next state = some (item, after)) :
    items state = item :: items after := by
  rw [items]
  split
  · rename_i hNone
    rw [hNext] at hNone
    exact absurd hNone nofun
  · rename_i hSome
    rw [hNext] at hSome
    cases hSome
    rfl

theorem items_done (rows : List (Except E (List Cell))) :
    items (⟨none, rows, true⟩ : Chunker E) = [] :=
  items_none rfl

/- The text of some rows. -/
def written (table : List (List Cell)) : List Char :=
  table.flatMap (writeRow [])

theorem written_append
    (first second : List (List Cell)) :
    written (first ++ second) =
      written first ++ written second :=
  List.flatMap_append

theorem writeRow_eq
    (out : List Char)
    (cells : List Cell) :
    writeRow out cells = out ++ writeRow [] cells := by
  rw [writeRow, writeRow, List.nil_append, List.append_assoc]

/- What a chunk takes, and what it leaves. -/
theorem fill_spec
    (buf : List Char)
    (rows : List (Except E (List Cell))) :
    ∃ taken,
      (fill buf rows).buf = buf ++ written taken ∧
        rows = taken.map .ok ++
          match (fill buf rows).stop with
          | .failed err => .error err :: (fill buf rows).rows
          | .ended => []
          | .full => (fill buf rows).rows := by
  induction rows generalizing buf with
  | nil =>
      by_cases hSmall : utf8Len buf < chunkTargetBytes
      · rw [fill_nil hSmall]
        exact ⟨[], (List.append_nil buf).symm, rfl⟩
      · rw [fill_full hSmall]
        exact ⟨[], (List.append_nil buf).symm, rfl⟩
  | cons row rest ih =>
      by_cases hSmall : utf8Len buf < chunkTargetBytes
      · cases row with
        | ok cells =>
            rw [fill_ok hSmall]
            rcases ih (writeRow buf cells) with
              ⟨taken, hBuf, hRows⟩
            refine ⟨cells :: taken, ?_, ?_⟩
            · rw [hBuf, writeRow_eq, List.append_assoc]
              rfl
            · rw [List.map_cons, List.cons_append, ← hRows]
        | error err =>
            rw [fill_error hSmall]
            exact ⟨[], (List.append_nil buf).symm, rfl⟩
      · rw [fill_full hSmall]
        exact ⟨[], (List.append_nil buf).symm, rfl⟩

def chunkOf (text : List Char) : Item E :=
  .ok (Utf8.encode text)

/-
  How the body of some rows goes: their text in chunks, and
  where there is an error the text of some rows before it and
  then the error.
-/
inductive Emitted :
    List (Except E (List Cell)) → List (Item E) → Prop where
  | ended
      {table : List (List Cell)}
      {texts : List (List Char)}
      (hTexts : texts.flatten = written table) :
      Emitted (table.map .ok) (texts.map chunkOf)
  | failed
      {table taken : List (List Cell)}
      {texts : List (List Char)}
      (err : E)
      (later : List (Except E (List Cell)))
      (hTaken : taken <+: table)
      (hTexts : texts.flatten = written taken) :
      Emitted (table.map .ok ++ .error err :: later)
        (texts.map chunkOf ++ [.error err])

/- A chunk before the rest of the body. -/
theorem Emitted.behind
    {rows : List (Except E (List Cell))}
    {body : List (Item E)}
    (hRest : Emitted rows body)
    (taken : List (List Cell)) :
    Emitted (taken.map .ok ++ rows)
      (chunkOf (written taken) :: body) := by
  cases hRest with
  | @ended table texts hTexts =>
      rw [← List.map_append, ← List.map_cons]
      refine .ended ?_
      rw [List.flatten_cons, hTexts, written_append]
  | @failed table first texts err later hTaken hTexts =>
      rw [← List.append_assoc, ← List.map_append,
        ← List.cons_append, ← List.map_cons]
      refine .failed err later
        ((List.prefix_append_right_inj taken).mpr hTaken) ?_
      rw [List.flatten_cons, hTexts, written_append]

theorem emitted_items
    (rows : List (Except E (List Cell))) :
    Emitted rows (items ⟨none, rows, false⟩) := by
  generalize hLength : rows.length = n
  induction n using Nat.strong_induction_on generalizing rows with
  | _ n ih =>
      rcases fill_spec [] rows with ⟨taken, hBuf, hRows⟩
      rw [List.nil_append] at hBuf
      cases hStop : (fill [] rows).stop with
      | failed err =>
          rw [hStop] at hRows
          have hNext :
              next (⟨none, rows, false⟩ : Chunker E) =
                some (.error err,
                  ⟨none, (fill [] rows).rows, true⟩) := by
            rw [next]
            dsimp only
            rw [if_neg Bool.false_ne_true, hStop]
          rw [items_some hNext, items_done, hRows]
          exact @Emitted.failed E taken [] [] err
            (fill [] rows).rows List.nil_prefix rfl
      | ended =>
          rw [hStop, List.append_nil] at hRows
          by_cases hEmpty : (fill [] rows).buf = []
          · have hNext :
                next (⟨none, rows, false⟩ : Chunker E) =
                  none := by
              rw [next]
              dsimp only
              rw [if_neg Bool.false_ne_true, hStop]
              exact if_pos hEmpty
            rw [items_none hNext, hRows]
            refine @Emitted.ended E taken [] ?_
            rw [List.flatten_nil, ← hBuf, hEmpty]
          · have hNext :
                next (⟨none, rows, false⟩ : Chunker E) =
                  some (chunkOf (written taken),
                    ⟨none, (fill [] rows).rows, true⟩) := by
              rw [next]
              dsimp only
              rw [if_neg Bool.false_ne_true, hStop]
              dsimp only
              rw [if_neg hEmpty, hBuf]
              rfl
            rw [items_some hNext, items_done, hRows]
            refine @Emitted.ended E taken [written taken] ?_
            rw [List.flatten_singleton]
      | full =>
          rw [hStop] at hRows
          have hNext :
              next (⟨none, rows, false⟩ : Chunker E) =
                some (chunkOf (written taken),
                  ⟨none, (fill [] rows).rows, false⟩) := by
            rw [next]
            dsimp only
            rw [if_neg Bool.false_ne_true, hStop, hBuf]
            rfl
          have hLess := length_fill_lt hStop
          have hRest :=
            ih (fill [] rows).rows.length (by omega)
              (fill [] rows).rows rfl
          rw [items_some hNext]
          have hBehind := hRest.behind taken
          rw [← hRows] at hBehind
          exact hBehind

theorem map_ok_inj
    {first second : List (List Cell)}
    (hSame :
      first.map (Except.ok : _ → Except E (List Cell)) =
        second.map .ok) :
    first = second :=
  List.map_injective_iff.mpr (fun _ _ h => Except.ok.inj h)
    hSame

theorem emitted_whole
    {table : List (List Cell)}
    {body : List (Item E)}
    (hEmitted : Emitted (table.map .ok) body) :
    ∃ texts : List (List Char),
      body = texts.map chunkOf ∧
        texts.flatten = written table := by
  generalize hRows :
    table.map (Except.ok : _ → Except E (List Cell)) = rows
    at hEmitted
  cases hEmitted with
  | ended hTexts =>
      rw [map_ok_inj hRows]
      exact ⟨_, rfl, hTexts⟩
  | failed err later hTaken hTexts =>
      have hMem :
          (Except.error err : Except E (List Cell)) ∈
            table.map .ok := by
        rw [hRows]
        exact List.mem_append_right _ List.mem_cons_self
      rcases List.mem_map.mp hMem with ⟨_, _, hSame⟩
      exact absurd hSame nofun

theorem emitted_failed
    {rows : List (Except E (List Cell))}
    {body : List (Item E)}
    (hEmitted : Emitted rows body)
    {err : E}
    (hError : .error err ∈ rows) :
    ∃ (texts : List (List Char)) (first : E),
      body = texts.map chunkOf ++ [.error first] := by
  cases hEmitted with
  | ended hTexts =>
      rcases List.mem_map.mp hError with ⟨_, _, hSame⟩
      exact absurd hSame nofun
  | failed first later hTaken hTexts =>
      exact ⟨_, first, rfl⟩

--------------------
-- Reading It Back
--------------------

theorem quotedText_eq (field : List Char) :
    quotedText field = quote :: doubled field ++ [quote] := by
  have hSame :
      (fun ch : Char =>
          (if ch = quote then [quote] else []) ++ [ch]) =
        (fun c => if c = quote then [c, c] else [c]) := by
    funext c
    split_ifs with hQuote
    · rw [hQuote]
      rfl
    · rfl
  rw [quotedText, hSame, doubled]

theorem spelled_fieldText
    (single : Bool)
    (cell : Cell) :
    Spelled cell.rendered (fieldText single cell) := by
  rw [fieldText]
  cases hQuotes : needsQuotes single cell.rendered with
  | true =>
      rw [if_pos rfl, quotedText_eq]
      exact .quoted cell.rendered
  | false =>
      rw [if_neg Bool.false_ne_true]
      refine .bare (fun c hMem => ?_)
      rw [needsQuotes, Bool.or_eq_false_iff,
        List.any_eq_false] at hQuotes
      have hPlain := hQuotes.2 c hMem
      simp only [Bool.or_eq_true, beq_iff_eq, not_or] at hPlain
      exact ⟨hPlain.1.1.1, hPlain.1.1.2, hPlain.1.2,
        hPlain.2⟩

theorem fieldText_single_ne_nil (cell : Cell) :
    fieldText true cell ≠ [] := by
  rw [fieldText]
  cases hField : cell.rendered with
  | nil => exact List.cons_ne_nil _ _
  | cons c rest =>
      split_ifs
      · exact List.cons_ne_nil _ _
      · exact List.cons_ne_nil _ _

theorem writeCells_succ
    (single : Bool)
    (cells : List Cell)
    (index : Nat) :
    writeCells single (index + 1) cells =
      cells.flatMap (fun cell => ',' :: fieldText single cell) := by
  induction cells generalizing index with
  | nil => rfl
  | cons cell rest ih =>
      rw [writeCells, if_pos (Nat.succ_pos index), ih,
        List.flatMap_cons]
      rfl

theorem intercalate_cons_eq
    (text : List Char)
    (texts : List (List Char)) :
    [','].intercalate (text :: texts) =
      text ++ texts.flatMap (fun text => ',' :: text) := by
  induction texts generalizing text with
  | nil =>
      rw [List.intercalate_singleton, List.flatMap_nil,
        List.append_nil]
  | cons next rest ih =>
      rw [List.intercalate_cons_cons, ih, List.append_assoc,
        List.flatMap_cons]
      rfl

theorem writeRow_nil_eq (cells : List Cell) :
    writeRow [] cells =
      line (cells.map (fieldText (cells.length = 1))) := by
  rw [writeRow, line, List.nil_append]
  cases cells with
  | nil => rfl
  | cons cell rest =>
      rw [writeCells, if_neg (Nat.lt_irrefl 0),
        writeCells_succ, List.map_cons, intercalate_cons_eq,
        List.flatMap_map]
      rfl

variable {blank : Record}

theorem feeds_writeRow
    {cells : List Cell}
    (hCells : cells ≠ [])
    (records : List Record) :
    feeds blank (.before [] records) (writeRow [] cells) =
      some (.before []
        (records ++ [cells.map Cell.rendered])) := by
  have hSpelled :
      List.Forall₂ Spelled (cells.map Cell.rendered)
        (cells.map (fieldText (cells.length = 1))) := by
    rw [List.forall₂_map_left_iff, List.forall₂_map_right_iff,
      List.forall₂_same]
    exact fun cell _ => spelled_fieldText _ cell
  have hSome : cells.map Cell.rendered ≠ [] := by
    rw [ne_eq, List.map_eq_nil_iff]
    exact hCells
  have hLone :
      cells.map (fieldText (cells.length = 1)) ≠ [[]] := by
    intro hOne
    have hLength : cells.length = 1 := by
      have hBoth := congrArg List.length hOne
      rw [List.length_map] at hBoth
      exact hBoth
    rcases List.length_eq_one_iff.mp hLength with ⟨cell, rfl⟩
    rw [List.map_singleton, List.cons.injEq] at hOne
    exact fieldText_single_ne_nil cell hOne.1
  rw [writeRow_nil_eq,
    feeds_fields hSpelled hSome (Or.inr hLone),
    List.nil_append]

theorem feeds_written
    {table : List (List Cell)}
    (hTable : ∀ row ∈ table, row ≠ [])
    (records : List Record) :
    feeds blank (.before [] records) (written table) =
      some (.before []
        (records ++ table.map (·.map Cell.rendered))) := by
  induction table generalizing records with
  | nil =>
      rw [List.map_nil, List.append_nil]
      rfl
  | cons row rest ih =>
      rw [List.forall_mem_cons] at hTable
      rw [written, List.flatMap_cons, feeds_append,
        feeds_writeRow hTable.1, Option.bind_some,
        ← written, ih hTable.2, List.map_cons,
        List.append_assoc, List.singleton_append]

end CsvExport

--------------------
-- The Response
--------------------

namespace CsvExport

open Csv

section Response

variable {E : Type}

def safeSegment (text : List Char) : List Char :=
  text.map (fun c =>
    if c.isAlphanum ∨ c = '.' ∨ c = '_' ∨ c = '-' then c
    else '-')

def orExport (safe : List Char) : List Char :=
  if safe = [] then "export.csv".toList else safe

def exportName (filename : List Char) : List Char :=
  let safe := orExport (safeSegment filename)
  if ".csv".toList <:+ safe then safe
  else safe ++ ".csv".toList

def contentDisposition (name : List Char) : List Char :=
  "attachment; filename=".toList ++ quote :: name ++ [quote]

structure Response (E : Type) where
  contentDisposition : List Char
  cacheControl : List Char
  contentType : List Char
  body : List (Item E)

def notAHeaderValue : String :=
  "filename is not a header value"

def streamCsvResponse
    (filename : List Char)
    (header : List (List Char))
    (rows : List (Except E (List Cell))) :
    Except String (Response E) :=
  let disposition := contentDisposition (exportName filename)
  let first := writeRow [] (header.map Cell.raw)
  if Text.isHeaderValue disposition then
    .ok
      { contentDisposition := disposition
        cacheControl := "no-store".toList
        contentType := "text/csv; charset=utf-8".toList
        body := items ⟨some (Utf8.encode first), rows, false⟩ }
  else
    .error notAHeaderValue

/- A character that a safe name may hold. -/
def isSafe (c : Char) : Bool :=
  c.isAlphanum || c == '.' || c == '_' || c == '-'

theorem forall_safeSegment (text : List Char) :
    ∀ c ∈ safeSegment text, isSafe c = true := by
  intro c hMem
  rcases List.mem_map.mp hMem with ⟨old, _, rfl⟩
  split_ifs with hSafe
  · simpa only [isSafe, Bool.or_eq_true, beq_iff_eq,
      or_assoc] using hSafe
  · rfl

theorem forall_exportName (filename : List Char) :
    ∀ c ∈ exportName filename, isSafe c = true := by
  have hBase :
      ∀ c ∈ orExport (safeSegment filename),
        isSafe c = true := by
    rw [orExport]
    split_ifs
    · simp [isSafe]
    · exact forall_safeSegment filename
  have hEnd : ∀ c ∈ ".csv".toList, isSafe c = true := by
    simp [isSafe]
  intro c hMem
  rw [exportName] at hMem
  split_ifs at hMem
  · exact hBase c hMem
  · rcases List.mem_append.mp hMem with h | h
    · exact hBase c h
    · exact hEnd c h

theorem isHeaderValue_of_safe
    {name : List Char}
    (hName : ∀ c ∈ name, isSafe c = true) :
    Text.isHeaderValue name = true := by
  rw [Text.isHeaderValue, List.all_eq_true]
  intro c hMem
  have hSafe := hName c hMem
  have hRange : 32 ≤ c.toNat ∧ c.toNat ≠ 127 := by
    simp only [isSafe, Bool.or_eq_true, beq_iff_eq] at hSafe
    rcases hSafe with ((hAlphanum | rfl) | rfl) | rfl
    · delta Char.isAlphanum Char.isAlpha Char.isUpper
        Char.isLower Char.isDigit at hAlphanum
      simp only [Bool.or_eq_true, Bool.and_eq_true,
        decide_eq_true_eq, ge_iff_le,
        UInt32.le_iff_toNat_le] at hAlphanum
      have hCode : c.toNat = c.val.toNat := rfl
      simp at hAlphanum
      omega
    · decide
    · decide
    · decide
  simp [hRange]

theorem isHeaderValue_disposition (filename : List Char) :
    Text.isHeaderValue
      (contentDisposition (exportName filename)) = true := by
  have hName :=
    isHeaderValue_of_safe (forall_exportName filename)
  rw [Text.isHeaderValue] at hName
  unfold Text.isHeaderValue contentDisposition
  rw [List.all_append, List.all_append, List.all_cons, hName]
  simp [quote]

theorem body_streamed
    (filename : List Char)
    (header : List (List Char))
    (rows : List (Except E (List Cell))) :
    ∃ response,
      streamCsvResponse filename header rows = .ok response ∧
        response.body =
          chunkOf (writeRow [] (header.map Cell.raw)) ::
            items ⟨none, rows, false⟩ := by
  refine ⟨_, if_pos (isHeaderValue_disposition filename), ?_⟩
  exact items_some rfl

end Response

theorem rendered_text (value : List Char) :
    ((Cell.text value).rendered = value ∨
        (Cell.text value).rendered = apostrophe :: value) ∧
      ∀ c ∈ (Cell.text value).rendered.head?,
        c ∉ formulaPrefixes := by
  rw [Cell.rendered]
  split_ifs with hFormula
  · refine ⟨Or.inr rfl, ?_⟩
    intro c hHead
    cases hHead
    decide
  · refine ⟨Or.inl rfl, ?_⟩
    intro c hHead hMem
    rw [hHead] at hFormula
    exact hFormula (List.contains_iff_mem.mpr hMem)

theorem encode_flatten (texts : List (List Char)) :
    (texts.map Utf8.encode).flatten =
      Utf8.encode texts.flatten := by
  induction texts with
  | nil => rfl
  | cons text rest ih =>
      rw [List.map_cons, List.flatten_cons, List.flatten_cons,
        Utf8.encode_append, ih]

theorem rendered_raw (header : List (List Char)) :
    (header.map Cell.raw).map Cell.rendered = header := by
  rw [List.map_map]
  exact List.map_id header

section Lossless

variable {E : Type}
variable (blank : Record)

theorem read_written
    (header : List (List Char))
    {table : List (List Cell)}
    (hTable : ∀ row ∈ table, row ≠ []) :
    Csv.read blank
        (writeRow [] (header.map Cell.raw) ++ written table) =
      some ((if header = [] then blank else header) ::
        table.map (·.map Cell.rendered)) := by
  have hHeader :
      feeds blank (.before [] [])
          (writeRow [] (header.map Cell.raw)) =
        some (.before []
          [if header = [] then blank else header]) := by
    cases header with
    | nil => rfl
    | cons first others =>
        have hCells : (first :: others).map Cell.raw ≠ [] :=
          List.cons_ne_nil _ _
        rw [feeds_writeRow hCells, rendered_raw,
          if_neg (List.cons_ne_nil _ _), List.nil_append]
  rw [Csv.read, feeds_append, hHeader, Option.bind_some,
    feeds_written hTable, Option.bind_some, finish_before,
    List.singleton_append]

/-
  The download of any header and rows. Without an error its
  chunks read back, however they are cut, as the header and
  the rendered rows; with one it ends in an error. No text
  cell reads back as a formula.
-/
theorem streamCsvResponse_exact
    (filename : List Char)
    (header : List (List Char))
    (rows : List (Except E (List Cell))) :
    ∃ response,
      streamCsvResponse filename header rows = .ok response ∧
        (∀ table : List (List Cell),
          rows = table.map .ok → (∀ row ∈ table, row ≠ []) →
            ∃ (chunks : List (List UInt8)) (text : List Char),
              response.body = chunks.map .ok ∧
                Utf8.decode chunks.flatten = some text ∧
                ∀ pieces : List (List Char),
                  pieces.flatten = text →
                    readChunks blank pieces =
                      some
                        ((if header = [] then blank
                            else header) ::
                          table.map (·.map Cell.rendered))) ∧
        (∀ err, .error err ∈ rows →
          ∃ (chunks : List (List UInt8)) (first : E),
            response.body =
              chunks.map .ok ++ [.error first]) ∧
        ∀ value,
          ((Cell.text value).rendered = value ∨
              (Cell.text value).rendered =
                apostrophe :: value) ∧
            ∀ c ∈ (Cell.text value).rendered.head?,
              c ∉ formulaPrefixes := by
  rcases body_streamed filename header rows with
    ⟨response, hResponse, hBody⟩
  have hEmitted := emitted_items rows
  refine ⟨response, hResponse, ?_, ?_, rendered_text⟩
  · intro table hRows hTable
    rw [hRows] at hEmitted
    rcases emitted_whole hEmitted with ⟨texts, hItems, hTexts⟩
    have hChunks :
        response.body =
          ((writeRow [] (header.map Cell.raw) :: texts).map
            Utf8.encode).map .ok := by
      rw [hBody, hRows, hItems, List.map_map]
      rfl
    refine ⟨_, writeRow [] (header.map Cell.raw) ++
      written table, hChunks, ?_, ?_⟩
    · rw [encode_flatten, List.flatten_cons, hTexts]
      exact Utf8.decode_eq_some_iff.mpr rfl
    · intro pieces hPieces
      rw [readChunks_eq, hPieces,
        read_written blank header hTable]
  · intro err hError
    rcases emitted_failed hEmitted hError with
      ⟨texts, first, hItems⟩
    refine ⟨(writeRow [] (header.map Cell.raw) :: texts).map
      Utf8.encode, first, ?_⟩
    rw [hBody, hItems, List.map_map]
    rfl

end Lossless

/- A formula in a text, and a negative number. -/
theorem streamCsvResponse_exact_formula :
    ∃ (chunks : List (List UInt8)) (text : List Char),
      Utf8.decode chunks.flatten = some text ∧
        readChunks [] [text] =
          some
            [[['n'], ['d']],
              [[apostrophe, '=', '1'], ['-', '5']]] := by
  let table : List (List Cell) :=
    [[.text ['=', '1'], .raw ['-', '5']]]
  rcases streamCsvResponse_exact [] ['x'] [['n'], ['d']]
      (table.map (Except.ok : _ → Except Unit (List Cell)))
    with ⟨response, _, hTable, _⟩
  have hRows : ∀ row ∈ table, row ≠ [] := by decide
  rcases hTable table rfl hRows with
    ⟨chunks, text, _, hDecode, hRead⟩
  refine ⟨chunks, text, hDecode, ?_⟩
  rw [hRead [text] (List.flatten_singleton)]
  rfl

end CsvExport

end SentinelCommand
