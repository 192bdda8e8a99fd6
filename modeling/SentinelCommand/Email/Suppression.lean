import Mathlib.Data.List.DropRight
import SentinelCommand.Email.Worker

/-
  Whether the worker mails an address that was suppressed:
  the writer trims an address and lower-cases it, the reader
  only lower-cases it, and a failed query reads as none.

  Main declarations:
    * `Email.Lowercasing`
    * `Email.suppressed_not_mailed_iff`
    * `Email.suppressed_is_mailed`
-/

--------------------
-- Lower Case
--------------------

namespace SentinelCommand

namespace Email

open Privacy (SuppressionRow trimText insertSuppression)

/-
  `str::to_lowercase`. White space has no case, and nothing
  else is white space in lower case: the case of a text can
  be changed before or after it is trimmed, and a text keeps
  the white space around it.
-/
structure Lowercasing where
  toLowercase : String → String
  trims :
    ∀ text,
      trimText (toLowercase text) = toLowercase (trimText text)
  spaces :
    ∀ text, toLowercase (trimText text) = toLowercase text →
      trimText text = text

theorem Lowercasing.trimmed_iff
    (c : Lowercasing)
    (text : String) :
    trimText (c.toLowercase text) = c.toLowercase text ↔
      trimText text = text := by
  rw [c.trims]
  constructor
  · exact c.spaces text
  · intro hTrimmed
    rw [hTrimmed]

theorem trim_eq (text : List Char) :
    Text.trim text =
      (text.dropWhile Text.isWhitespace).rdropWhile
        Text.isWhitespace := by
  rfl

theorem trim_trim (text : List Char) :
    Text.trim (Text.trim text) = Text.trim text := by
  -- No white space leads what was trimmed.
  have hHead :
      (Text.trim text).dropWhile Text.isWhitespace =
        Text.trim text := by
    have hPrefix :
        Text.trim text <+:
          text.dropWhile Text.isWhitespace := by
      rw [trim_eq]
      exact List.rdropWhile_prefix Text.isWhitespace _
    have hSame :
        (text.dropWhile Text.isWhitespace).dropWhile
            Text.isWhitespace =
          text.dropWhile Text.isWhitespace :=
      List.dropWhile_idempotent Text.isWhitespace text
    rcases hPrefix with ⟨rest, hRest⟩
    cases hTrimmed : Text.trim text with
    | nil => rfl
    | cons c cs =>
        rw [← hRest, hTrimmed] at hSame
        by_cases hSpace : Text.isWhitespace c = true
        · have hShort :=
            List.length_dropWhile_le Text.isWhitespace
              (cs ++ rest)
          rw [List.cons_append,
            List.dropWhile_cons_of_pos hSpace] at hSame
          rw [hSame] at hShort
          exact absurd hShort (Nat.not_succ_le_self _)
        · exact List.dropWhile_cons_of_neg hSpace
  rw [trim_eq (Text.trim text), hHead, trim_eq]
  exact List.rdropWhile_idempotent Text.isWhitespace _

theorem trimText_trimText (text : String) :
    trimText (trimText text) = trimText text := by
  unfold trimText
  rw [String.toList_ofList, trim_trim]

--------------------
-- The Suppression List
--------------------

/- One address that is suppressed. -/
structure Insertion where
  address : String
  reason : String
  source : String
  now : Int
  deriving DecidableEq, Repr

/- The table after any addresses were suppressed. -/
def suppressionAfter
    (c : Lowercasing)
    (insertions : List Insertion) : List SuppressionRow :=
  (insertions.foldl
    (fun db new =>
      insertSuppression c.toLowercase db new.address
        new.reason new.source new.now)
    Privacy.Db.empty).emailSuppression

/- The address as the writer normalises it is on the list. -/
def Suppressed
    (c : Lowercasing)
    (table : List SuppressionRow)
    (recipient : String) : Prop :=
  ∃ entry ∈ table,
    entry.address = c.toLowercase (trimText recipient)

/- Every entry is some address as the writer normalises it. -/
def Normalised
    (c : Lowercasing)
    (table : List SuppressionRow) : Prop :=
  ∀ entry ∈ table,
    ∃ address, entry.address = c.toLowercase (trimText address)

theorem normalised_insertSuppression
    (c : Lowercasing)
    {db : Privacy.Db}
    (new : Insertion)
    (hTable : Normalised c db.emailSuppression) :
    Normalised c
      (insertSuppression c.toLowercase db new.address
        new.reason new.source new.now).emailSuppression := by
  unfold insertSuppression
  dsimp only
  split
  · exact hTable
  · unfold Privacy.suppress
    split
    · exact hTable
    · intro entry hEntry
      rcases List.mem_append.mp hEntry with hOld | hNew
      · exact hTable entry hOld
      · rw [List.mem_singleton.mp hNew]
        exact ⟨new.address, rfl⟩

theorem normalised_suppressionAfter
    (c : Lowercasing)
    (insertions : List Insertion) :
    Normalised c (suppressionAfter c insertions) := by
  have hFold (db : Privacy.Db)
      (hTable : Normalised c db.emailSuppression) :
      Normalised c
        (insertions.foldl
          (fun db new =>
            insertSuppression c.toLowercase db new.address
              new.reason new.source new.now)
          db).emailSuppression := by
    induction insertions generalizing db with
    | nil => exact hTable
    | cons new rest ih =>
        exact ih _ (normalised_insertSuppression c new hTable)
  apply hFold
  intro entry hEntry
  exact absurd hEntry List.not_mem_nil

/- An address on the list has no white space around it. -/
theorem trimmed_of_listed
    (c : Lowercasing)
    {table : List SuppressionRow}
    {text : String}
    (hTable : Normalised c table)
    (hListed :
      ∃ entry ∈ table, entry.address = c.toLowercase text) :
    trimText text = text := by
  rcases hListed with ⟨entry, hEntry, hText⟩
  rcases hTable entry hEntry with ⟨address, hAddress⟩
  apply (c.trimmed_iff text).mp
  calc
    trimText (c.toLowercase text)
        = trimText (c.toLowercase (trimText address)) := by
          rw [← hText, hAddress]
    _ = c.toLowercase (trimText address) := by
          rw [c.trims, trimText_trimText]
    _ = c.toLowercase text := by
          rw [← hAddress, hText]

/- `process_row` calls `send_email`. -/
def mails
    (c : Lowercasing)
    (table : List SuppressionRow)
    (queryOk : Bool)
    (result : SendResult)
    (row : OutboxRow) : Prop :=
  (processRow c.toLowercase table queryOk result row).1.isSome =
    true

/- The row is mailed unless its lower-cased text is found. -/
theorem mails_iff
    (c : Lowercasing)
    (table : List SuppressionRow)
    (queryOk : Bool)
    (result : SendResult)
    (row : OutboxRow) :
    mails c table queryOk result row ↔
      ¬ (queryOk = true ∧
          ∃ entry ∈ table,
            entry.address =
              c.toLowercase row.recipientEmail) := by
  unfold mails processRow findSuppression
  cases queryOk with
  | false => simp
  | true =>
      rw [if_pos rfl]
      cases hFound :
          table.find? (fun entry =>
            entry.address ==
              c.toLowercase row.recipientEmail) with
      | none =>
          have hNone := List.find?_eq_none.mp hFound
          simp only [Option.map_none, Option.isSome_some,
            true_iff, true_and]
          rintro ⟨entry, hEntry, hSame⟩
          exact hNone entry hEntry (beq_iff_eq.mpr hSame)
      | some entry =>
          have hEntry := List.mem_of_find?_eq_some hFound
          have hSame := List.find?_some hFound
          simp only [Option.map_some, Option.isSome_none,
            Bool.false_eq_true, false_iff, not_not, true_and]
          exact ⟨entry, hEntry, eq_of_beq hSame⟩

/-
  A suppressed address is not mailed exactly when the query
  succeeds and no white space surrounds the recipient.
-/
theorem suppressed_not_mailed_iff
    (c : Lowercasing)
    (insertions : List Insertion)
    (queryOk : Bool)
    (result : SendResult)
    (row : OutboxRow) :
    (mails c (suppressionAfter c insertions) queryOk result
        row →
      ¬ Suppressed c (suppressionAfter c insertions)
        row.recipientEmail) ↔
    ¬ Suppressed c (suppressionAfter c insertions)
        row.recipientEmail ∨
      queryOk = true ∧
        trimText row.recipientEmail = row.recipientEmail := by
  have hTable := normalised_suppressionAfter c insertions
  rw [mails_iff]
  by_cases hSuppressed :
      Suppressed c (suppressionAfter c insertions)
        row.recipientEmail
  · simp only [hSuppressed, not_true_eq_false, imp_false,
      not_not, false_or]
    constructor
    · rintro ⟨hQuery, hListed⟩
      exact ⟨hQuery, trimmed_of_listed c hTable hListed⟩
    · rintro ⟨hQuery, hTrimmed⟩
      unfold Suppressed at hSuppressed
      rw [hTrimmed] at hSuppressed
      exact ⟨hQuery, hSuppressed⟩
  · simp only [hSuppressed, not_false_eq_true, implies_true,
      true_or]

--------------------
-- A Failed Query
--------------------

/- The capitals of ASCII, and where they go. -/
theorem toNat_toLower (c : Char) :
    c.toLower.toNat = c.toNat ∧
        ¬ (65 ≤ c.toNat ∧ c.toNat ≤ 90) ∨
      c.toLower.toNat = c.toNat + 32 ∧ 65 ≤ c.toNat ∧
        c.toNat ≤ 90 := by
  unfold Char.toLower
  split
  · rename_i hUpper
    right
    have hLow : 65 ≤ c.toNat := hUpper.1
    have hHigh : c.toNat ≤ 90 := hUpper.2
    refine ⟨?_, hLow, hHigh⟩
    show (c.val + ('a'.val - 'A'.val)).toNat = c.val.toNat + 32
    have hSmall : c.val.toNat ≤ 90 := hHigh
    rw [UInt32.toNat_add]
    have hShift : ('a'.val - 'A'.val).toNat = 32 := by decide
    rw [hShift]
    omega
  · rename_i hOther
    left
    exact ⟨rfl, fun h => hOther ⟨h.1, h.2⟩⟩

theorem isWhitespace_toLower (c : Char) :
    Text.isWhitespace c.toLower = Text.isWhitespace c := by
  unfold Text.isWhitespace
  dsimp only
  rcases toNat_toLower c with ⟨hSame, _⟩ | ⟨hMoved, hLow, hHigh⟩
  · rw [hSame]
  · rw [hMoved, Bool.eq_iff_iff]
    simp only [Bool.or_eq_true, Bool.and_eq_true,
      decide_eq_true_eq, beq_iff_eq]
    omega

theorem dropWhile_toLower (text : List Char) :
    (text.map Char.toLower).dropWhile Text.isWhitespace =
      (text.dropWhile Text.isWhitespace).map Char.toLower := by
  rw [List.dropWhile_map]
  have hSame :
      (Text.isWhitespace ∘ Char.toLower) =
        Text.isWhitespace :=
    funext isWhitespace_toLower
  rw [hSame]

theorem trim_toLower (text : List Char) :
    Text.trim (text.map Char.toLower) =
      (Text.trim text).map Char.toLower := by
  unfold Text.trim
  rw [dropWhile_toLower, ← List.map_reverse, dropWhile_toLower,
    ← List.map_reverse]

theorem trim_sublist (text : List Char) :
    (Text.trim text).Sublist text := by
  rw [trim_eq]
  exact (List.rdropWhile_prefix Text.isWhitespace _).sublist.trans
    (List.dropWhile_suffix Text.isWhitespace).sublist

/- Lower case, for texts that are ASCII. -/
def asciiLowercasing : Lowercasing where
  toLowercase text := String.ofList (text.toList.map Char.toLower)
  trims := by
    intro text
    unfold trimText
    rw [String.toList_ofList, String.toList_ofList,
      trim_toLower]
  spaces := by
    intro text hSame
    unfold trimText at hSame ⊢
    rw [String.toList_ofList, String.ofList_inj] at hSame
    have hLength :
        (Text.trim text.toList).length =
          text.toList.length := by
      have hMapped := congrArg List.length hSame
      rwa [List.length_map, List.length_map] at hMapped
    rw [(trim_sublist text.toList).eq_of_length hLength,
      String.ofList_toList]

def bounced : Insertion where
  address := "Ann@Example.com"
  reason := "bounce"
  source := "resend_webhook"
  now := 0

def noticeRow : OutboxRow :=
  { (NewEmail.mk "org_1" "ann@example.com" "Camera offline"
      "The camera is offline." "<p>The camera is offline.</p>"
      "camera_offline").row 1 0 with
    status := .sending }

def accepted : SendResult where
  ok := true
  skipped := false
  messageId := some "msg_1"
  error := none

/- The bounced address is mailed when the query fails. -/
theorem suppressed_is_mailed :
    ¬ (mails asciiLowercasing
          (suppressionAfter asciiLowercasing [bounced]) false
          accepted noticeRow →
        ¬ Suppressed asciiLowercasing
          (suppressionAfter asciiLowercasing [bounced])
          noticeRow.recipientEmail) := by
  intro hNever
  have hListed :
      Suppressed asciiLowercasing
        (suppressionAfter asciiLowercasing [bounced])
        noticeRow.recipientEmail :=
    ⟨⟨"ann@example.com", "bounce", "resend_webhook", 0⟩,
      by decide, by decide⟩
  exact hNever rfl hListed

/- So is its spelling with a blank, when the query succeeds. -/
example :
    mails asciiLowercasing
      (suppressionAfter asciiLowercasing [bounced]) true
      accepted
      { noticeRow with
        recipientEmail := " ann@example.com" } := by
  unfold mails
  decide

end Email

end SentinelCommand
