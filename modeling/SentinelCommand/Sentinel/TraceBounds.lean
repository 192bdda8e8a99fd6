import Mathlib.Data.List.Forall2
import SentinelCommand.Audit.PythonJson
import SentinelCommand.Sentinel.CompleteRequest

/-
  What a posted tool trace is stored as: JSON again, each
  part of it within its limit, so that no trace makes the
  text longer than a constant.

  An escape of one character takes twelve at most. The limits
  are on characters before they are escaped.

  Key definitions include:
    * `Sentinel.Value`
    * `Sentinel.Capped`

  Correctness is proven by:
    * `Sentinel.parse_serialiseToolTrace`
    * `Sentinel.serialiseToolTrace_bounded`
-/

--------------------
-- Lengths of Spellings
--------------------

namespace SentinelCommand

namespace Sentinel

open Agent Audit

theorem length_pythonJsonChar_le (c : Char) :
    (pythonJsonChar c).length ≤ 12 := by
  have hSpelled := spelled_pythonJsonChar c
  generalize pythonJsonChar c = text at hSpelled
  cases hSpelled with
  | plain _ =>
      change 1 ≤ 12
      decide
  | short _ _ _ =>
      change 2 ≤ 12
      decide
  | unit _ _ =>
      change 6 ≤ 12
      decide
  | pair _ _ =>
      rw [List.length_append]
      change 6 + 6 ≤ 12
      decide

theorem length_pythonJsonString_le (text : String) :
    (pythonJsonString text).toList.length ≤
      12 * text.length + 2 := by
  have hBody :
      ∀ chars : List Char,
        (chars.flatMap pythonJsonChar).length ≤
          12 * chars.length := by
    intro chars
    induction chars with
    | nil => exact Nat.le_refl 0
    | cons c chars ih =>
        have hC := length_pythonJsonChar_le c
        rw [List.flatMap_cons, List.length_append,
          List.length_cons]
        omega
  have hText := hBody text.toList
  rw [String.length_toList] at hText
  rw [pythonJsonString, String.toList_ofList,
    List.length_append, List.length_cons, List.length_singleton]
  omega

theorem length_intercalate_le
    (separator : List Char)
    {texts : List (List Char)}
    {limit : Nat}
    (hTexts : ∀ text ∈ texts, text.length ≤ limit) :
    (separator.intercalate texts).length ≤
      texts.length * (limit + separator.length) := by
  induction texts with
  | nil => exact Nat.zero_le _
  | cons text texts ih =>
      have hText := hTexts text List.mem_cons_self
      have hRest :=
        ih (fun other hOther =>
          hTexts other (List.mem_cons_of_mem _ hOther))
      cases texts with
      | nil =>
          rw [List.intercalate_singleton, List.length_singleton]
          omega
      | cons next texts =>
          rw [List.intercalate_cons_cons, List.length_append,
            List.length_append, List.length_cons, Nat.add_mul]
          omega

theorem spelledItems_eq_map
    (gap : List Char)
    (items : List Json) :
    spelledItems gap items = items.map (spelled gap) := by
  induction items with
  | nil => rfl
  | cons item rest ih => rw [spelledItems, ih, List.map_cons]

--------------------
-- Caps
--------------------

/- A text within its limit, or its start and an ellipsis. -/
def Capped (limit : Nat) (text stored : String) : Prop :=
  (text.length ≤ limit → stored = text) ∧
    (limit < text.length →
      stored.toList = text.toList.take limit ++ ['…'])

theorem Capped.length_le
    {limit : Nat}
    {text stored : String}
    (hCapped : Capped limit text stored) :
    stored.length ≤ limit + 1 := by
  by_cases hLong : limit < text.length
  · have hStored := hCapped.2 hLong
    rw [← String.length_toList, hStored, List.length_append,
      List.length_take, List.length_singleton]
    omega
  · rw [hCapped.1 (by omega)]
    omega

/- What a field is cut from. -/
def posted
    (numbers : Numbers)
    (entry : Fields)
    (name : String) : String :=
  match entry.lookup name with
  | none => ""
  | some value => pythonStr numbers value

theorem toList_truncated (text : String) (limit : Nat) :
    (truncateChars text limit ++ "…").toList =
      text.toList.take limit ++ ['…'] := by
  rw [String.toList_append, truncateChars, String.toList_ofList]
  rfl

theorem capped_capStr
    (numbers : Numbers)
    (entry : Fields)
    (name : String)
    (limit : Nat) :
    Capped limit (posted numbers entry name)
      (capStr numbers (entry.lookup name) limit) := by
  change Capped limit _
    (if (posted numbers entry name).toList.length ≤ limit then
      posted numbers entry name
    else
      truncateChars (posted numbers entry name) limit ++ "…")
  rw [String.length_toList]
  constructor
  · intro hShort
    exact if_pos hShort
  · intro hLong
    rw [if_neg (by omega), toList_truncated]

/- The arguments of an entry, of which none are no object. -/
def postedArgs (entry : Fields) : Json :=
  match entry.lookup "args" with
  | some (.object fields) => .object fields
  | _ => .object []

/- Arguments as they are, or the start of their JSON. -/
def StoredArgs (args stored : Json) : Prop :=
  ((pythonJsonValue args).length ≤ 1500 → stored = args) ∧
    (1500 < (pythonJsonValue args).length →
      ∃ text,
        stored = .object [("_truncated", .string text)] ∧
          Capped 1500 (pythonJsonValue args) text ∧
          text.length ≤ 1501)

theorem storedArgs_capArgs (entry : Fields) :
    StoredArgs (postedArgs entry)
      (capArgs (entry.lookup "args")) := by
  change StoredArgs _
    (if 1500 < (pythonJsonValue (postedArgs entry)).toList.length
      then
        .object
          [("_truncated",
            .string
              (truncateChars (pythonJsonValue (postedArgs entry))
                1500 ++ "…"))]
      else
        postedArgs entry)
  rw [String.length_toList]
  constructor
  · intro hShort
    exact if_neg (by omega)
  · intro hLong
    have hCapped :
        Capped 1500 (pythonJsonValue (postedArgs entry))
          (truncateChars (pythonJsonValue (postedArgs entry))
            1500 ++ "…") :=
      ⟨fun hShort => absurd hShort (by omega),
        fun _ => toList_truncated _ _⟩
    exact ⟨_, if_pos hLong, hCapped, hCapped.length_le⟩

/- One entry of the stored trace, and what it was posted as. -/
inductive StoredEntry
    (numbers : Numbers)
    (entry : Fields) : Json → Prop where
  | fields {tool result : String} {args : Json} :
      Capped 200 (posted numbers entry "tool") tool →
        tool.length ≤ 201 →
          StoredArgs (postedArgs entry) args →
            Capped 1000 (posted numbers entry "result") result →
              result.length ≤ 1001 →
                StoredEntry numbers entry
                  (.object
                    [("tool", .string tool), ("args", args),
                      ("result", .string result)])

theorem storedEntry_capEntry
    (numbers : Numbers)
    (entry : Fields) :
    StoredEntry numbers entry (capEntry numbers entry) := by
  have hTool := capped_capStr numbers entry "tool" 200
  have hResult := capped_capStr numbers entry "result" 1000
  exact .fields hTool hTool.length_le (storedArgs_capArgs entry)
    hResult hResult.length_le

--------------------
-- Reading the Stored Trace
--------------------

theorem legible_lookup
    {fields : Fields}
    (hFields : LegibleFields fields)
    {key : String}
    {value : Json}
    (hValue : fields.lookup key = some value) :
    Legible value := by
  induction fields with
  | nil => cases hValue
  | cons field fields ih =>
      rcases field with ⟨name, given⟩
      rw [List.lookup_cons] at hValue
      split at hValue
      · cases hValue
        exact hFields.1
      · exact ih hFields.2 hValue

theorem legible_postedArgs
    {entry : Fields}
    (hEntry : LegibleFields entry) :
    Legible (postedArgs entry) := by
  unfold postedArgs
  split
  · rename_i fields hArgs
    exact legible_lookup hEntry hArgs
  · trivial

theorem StoredArgs.legible
    {args stored : Json}
    (hStored : StoredArgs args stored)
    (hArgs : Legible args) :
    Legible stored := by
  by_cases hLong : 1500 < (pythonJsonValue args).length
  · rcases hStored.2 hLong with ⟨text, hText, -⟩
    rw [hText]
    exact ⟨trivial, trivial⟩
  · rw [hStored.1 (by omega)]
    exact hArgs

theorem StoredEntry.legible
    {numbers : Numbers}
    {entry : Fields}
    {stored : Json}
    (hStored : StoredEntry numbers entry stored)
    (hEntry : LegibleFields entry) :
    Legible stored := by
  cases hStored with
  | fields _ _ hArgs _ _ =>
      exact ⟨trivial, hArgs.legible (legible_postedArgs hEntry),
        trivial, trivial⟩

/- The objects among the last fifty elements. -/
def recorded (trace : List Json) : List Fields :=
  (trace.drop (trace.length - 50)).filterMap Json.asObject

theorem legible_of_recorded
    {trace : List Json}
    (hTrace : ∀ item ∈ trace, Legible item)
    {entry : Fields}
    (hEntry : entry ∈ recorded trace) :
    LegibleFields entry := by
  rcases List.mem_filterMap.mp hEntry with ⟨item, hItem, hFields⟩
  have hLegible := hTrace item (List.mem_of_mem_drop hItem)
  rw [Json.eq_object_of_asObject hFields] at hLegible
  exact hLegible

theorem legible_entries
    (numbers : Numbers) :
    (entries : List Fields) →
      (∀ entry ∈ entries, LegibleFields entry) →
        LegibleItems (entries.map (capEntry numbers))
| [], _ => trivial
| entry :: rest, hEntries =>
    ⟨(storedEntry_capEntry numbers entry).legible
        (hEntries entry List.mem_cons_self),
      legible_entries numbers rest
        (fun other hOther =>
          hEntries other (List.mem_cons_of_mem _ hOther))⟩

theorem parse_serialiseToolTrace
    (numbers : Numbers)
    {trace : List Json}
    (hTrace : ∀ item ∈ trace, Legible item) :
    Json.Reader.parse (serialiseToolTrace numbers trace).toList =
      some
        (.array ((recorded trace).map (capEntry numbers))) := by
  have hLegible :
      Legible (.array ((recorded trace).map (capEntry numbers))) :=
    legible_entries numbers _
      (fun entry hEntry => legible_of_recorded hTrace hEntry)
  rw [serialiseToolTrace, toList_pythonJsonValue]
  exact parse_legible (writers_spelled .null).2.2.1.1 hLegible

--------------------
-- The Length of the Stored Trace
--------------------

theorem StoredArgs.length_le
    {args stored : Json}
    (hStored : StoredArgs args stored) :
    (spelled [' '] stored).length ≤ 18030 := by
  by_cases hLong : 1500 < (pythonJsonValue args).length
  · rcases hStored.2 hLong with ⟨text, hText, -, hLength⟩
    have hString := length_pythonJsonString_le text
    have hKey :
        (pythonJsonString "_truncated").toList.length = 12 := by
      decide +kernel
    rw [hText, spelled, spelledFields, spelledFields,
      List.intercalate_singleton, List.length_append,
      List.length_cons, List.length_append, List.length_append,
      hKey]
    change 12 + 2 + (pythonJsonString text).toList.length + 1 +
      1 ≤ 18030
    omega
  · rw [hStored.1 (by omega), ← toList_pythonJsonValue,
      String.length_toList]
    omega

theorem StoredEntry.length_le
    {numbers : Numbers}
    {entry : Fields}
    {stored : Json}
    (hStored : StoredEntry numbers entry stored) :
    (spelled [' '] stored).length ≤ 32490 := by
  cases hStored with
  | @fields tool result args _ hTool hArgs _ hResult =>
      have hToolLength := length_pythonJsonString_le tool
      have hResultLength := length_pythonJsonString_le result
      have hArgsLength := hArgs.length_le
      have hToolKey :
          (pythonJsonString "tool").toList.length = 6 := by
        decide +kernel
      have hArgsKey :
          (pythonJsonString "args").toList.length = 6 := by
        decide +kernel
      have hResultKey :
          (pythonJsonString "result").toList.length = 8 := by
        decide +kernel
      have hToolSpelled :
          (spelled [' '] (.string tool)).length =
            (pythonJsonString tool).toList.length := rfl
      have hResultSpelled :
          (spelled [' '] (.string result)).length =
            (pythonJsonString result).toList.length := rfl
      rw [spelled, spelledFields, spelledFields, spelledFields,
        spelledFields, List.intercalate_cons_cons,
        List.intercalate_cons_cons, List.intercalate_singleton]
      simp only [List.length_append, List.length_cons,
        List.length_nil, hToolKey, hArgsKey, hResultKey,
        hToolSpelled, hResultSpelled]
      omega

theorem length_serialiseToolTrace_le
    (numbers : Numbers)
    (trace : List Json) :
    (serialiseToolTrace numbers trace).length ≤ 1624602 := by
  have hCount : (recorded trace).length ≤ 50 := by
    have hObjects :=
      List.length_filterMap_le Json.asObject
        (trace.drop (trace.length - 50))
    rw [List.length_drop] at hObjects
    unfold recorded
    omega
  have hItems :
      ∀ text ∈ spelledItems [' ']
          ((recorded trace).map (capEntry numbers)),
        text.length ≤ 32490 := by
    intro text hText
    rw [spelledItems_eq_map, List.map_map] at hText
    rcases List.mem_map.mp hText with ⟨entry, -, hEntry⟩
    rw [← hEntry]
    exact (storedEntry_capEntry numbers entry).length_le
  have hLength := length_intercalate_le [',', ' '] hItems
  rw [spelledItems_eq_map, List.length_map, List.length_map,
    ← spelledItems_eq_map] at hLength
  rw [← String.length_toList, serialiseToolTrace,
    toList_pythonJsonValue]
  change (spelled [' ']
    (.array ((recorded trace).map (capEntry numbers)))).length ≤ _
  rw [spelled, List.length_append, List.length_cons]
  change _ ≤ (recorded trace).length * (32490 + 2) at hLength
  change _ + 1 + 1 ≤ 1624602
  omega

/-
  A value as `serde_json` holds it: its floats are finite, and
  it writes each as a number with a fraction or an exponent.
-/
abbrev Value : Type := { value : Json // Legible value }

/-
  Of every trace that can be posted, what is stored is read as
  the objects among its last fifty elements, in their order,
  each within its limits; and it is never longer than a
  constant.
-/
theorem serialiseToolTrace_bounded
    (numbers : Numbers)
    (trace : List Value) :
    (∃ entries,
      Json.Reader.parse
          (serialiseToolTrace numbers
            (trace.map Subtype.val)).toList =
          some (.array entries) ∧
        List.Forall₂ (StoredEntry numbers)
          (recorded (trace.map Subtype.val)) entries) ∧
      (serialiseToolTrace numbers
        (trace.map Subtype.val)).length ≤ 1624602 := by
  have hTrace :
      ∀ item ∈ trace.map Subtype.val, Legible item := by
    intro item hItem
    rcases List.mem_map.mp hItem with ⟨value, -, hValue⟩
    rw [← hValue]
    exact value.2
  refine ⟨⟨_, parse_serialiseToolTrace numbers hTrace, ?_⟩,
    length_serialiseToolTrace_le numbers _⟩
  rw [List.forall₂_map_right_iff, List.forall₂_same]
  intro entry _
  exact storedEntry_capEntry numbers entry

end Sentinel

end SentinelCommand
