import SentinelCommand.Webhooks.Svix

/-
  `bearer_token` and `session_cookie` of `auth.rs`: where a
  request carries its session token.

  The loop over the pieces of a `Cookie` header leaves the
  function at the first piece without an equals sign, so what
  another program stored beside the session can hide it.

  Key definitions include:
    * `Session.bearerToken`, `Session.sessionCookie`
    * `Session.clerkToken`

  Correctness is proven by:
    * `Session.findSession_eq_iff`
    * `Session.sessionCookie_exact_iff`
-/

--------------------
-- Tokens of a Request
--------------------

namespace SentinelCommand

namespace Session

open Svix Text

def clerkSessionCookie : List Char := "__session".toList

def bearerToken (headers : Headers) : Option (List Char) :=
  ((headers.lookup "authorization").bind toStr).bind
    (stripPrefix "Bearer ".toList)

/- The loop: a piece that does not split returns `None`. -/
def findSession : List (List Char) → Option (List Char)
| [] => none
| pair :: rest =>
    match splitOnce '=' pair with
    | none => none
    | some (name, value) =>
        if trim name = clerkSessionCookie then
          some (trim value)
        else
          findSession rest

def sessionCookie (headers : Headers) : Option (List Char) :=
  match (headers.lookup "cookie").bind toStr with
  | none => none
  | some header => findSession (header.splitOn ';')

/- What `authenticate_inner` verifies in Clerk mode. -/
def clerkToken (headers : Headers) : Option (List Char) :=
  (bearerToken headers).or (sessionCookie headers)

/- The bytes of a header's value as characters. -/
def characters (value : List UInt8) : List Char :=
  value.map (fun b => Char.ofNat b.toNat)

/- The spaces a header's value can hold. -/
def isSpace (c : Char) : Bool :=
  c = ' ' || c = '\t'

def strip (text : List Char) : List Char :=
  ((text.dropWhile isSpace).reverse.dropWhile isSpace).reverse

/- The name and the value of a pair; a bare token has none. -/
def entry
    (piece : List Char) : Option (List Char × List Char) :=
  (splitOnce '=' piece).map
    (fun parts => (strip parts.1, strip parts.2))

def namesSession (piece : List Char) : Bool :=
  match entry piece with
  | none => false
  | some (name, _) => name = clerkSessionCookie

def pieces (value : List UInt8) : List (List Char) :=
  (characters value).splitOn ';'

/- The value of the first pair that has the session's name. -/
def firstSession
    (pieces : List (List Char)) : Option (List Char) :=
  ((pieces.filterMap entry).find?
    (fun pair => pair.1 = clerkSessionCookie)).map Prod.snd

def storedSession (value : List UInt8) : Option (List Char) :=
  firstSession (pieces value)

/- No bare token stands before the session's pair. -/
def Paired (pieces : List (List Char)) : Prop :=
  ∀ piece ∈ pieces.takeWhile (fun p => !namesSession p),
    '=' ∈ piece

/-
  The header reads as text, and up to the session's pair it
  is pairs only.
-/
structure Undisturbed (value : List UInt8) : Prop where
  readable : toStr value = some (characters value)
  paired : Paired (pieces value)

instance (pieces : List (List Char)) :
    Decidable (Paired pieces) := by
  unfold Paired
  infer_instance

--------------------
-- The Loop and the First Pair
--------------------

/- Trimming only looks at the characters of the text. -/
theorem trim_eq_strip
    {text : List Char}
    (hPlain : ∀ c ∈ text, isWhitespace c = isSpace c) :
    trim text = strip text := by
  have hDrop :
      ∀ xs : List Char, (∀ c ∈ xs, c ∈ text) →
        xs.dropWhile isWhitespace = xs.dropWhile isSpace := by
    intro xs hXs
    induction xs with
    | nil => rfl
    | cons c rest ih =>
        have hC := hPlain c (hXs c List.mem_cons_self)
        have hRest := ih (fun d hD =>
          hXs d (List.mem_cons_of_mem c hD))
        simp only [List.dropWhile_cons, hC, hRest]
  unfold trim strip
  rw [hDrop text (fun _ h => h)]
  congr 1
  apply hDrop
  intro c hC
  exact (List.dropWhile_sublist isSpace).subset
    (List.mem_reverse.mp hC)

/- A pair reads the same in the loop and in the list. -/
theorem entry_of_splitOnce
    {piece name value : List Char}
    (hPlain : ∀ c ∈ piece, isWhitespace c = isSpace c)
    (hSplit : splitOnce '=' piece = some (name, value)) :
    entry piece = some (trim name, trim value) := by
  obtain ⟨hPiece, -⟩ := splitOnce_eq_some hSplit
  have hName : trim name = strip name :=
    trim_eq_strip (fun c h => hPlain c (by simp [hPiece, h]))
  have hValue : trim value = strip value :=
    trim_eq_strip (fun c h => hPlain c (by simp [hPiece, h]))
  simp only [entry, hSplit, Option.map_some, hName, hValue]

theorem firstSession_eq_none_iff
    (ps : List (List Char)) :
    firstSession ps = none ↔
      ∀ p ∈ ps, namesSession p = false := by
  unfold firstSession
  rw [Option.map_eq_none_iff, List.find?_eq_none]
  constructor
  · intro hNone p hP
    unfold namesSession
    cases hEntry : entry p with
    | none => rfl
    | some pair =>
        exact decide_eq_false (by
          simpa using hNone pair
            (List.mem_filterMap.mpr ⟨p, hP, hEntry⟩))
  · intro hNone pair hPair
    obtain ⟨p, hP, hEntry⟩ := List.mem_filterMap.mp hPair
    have hName := hNone p hP
    simpa [namesSession, hEntry] using hName

/-
  The loop agrees with the first pair unless a bare token
  stands before it.
-/
theorem findSession_eq_iff
    {ps : List (List Char)}
    (hPlain :
      ∀ p ∈ ps, ∀ c ∈ p, isWhitespace c = isSpace c) :
    findSession ps = firstSession ps ↔
      firstSession ps = none ∨ Paired ps := by
  induction ps with
  | nil => simp [findSession, firstSession]
  | cons p rest ih =>
      have hRest := ih (fun q hQ =>
        hPlain q (List.mem_cons_of_mem p hQ))
      cases hSplit : splitOnce '=' p with
      | none =>
          -- The loop has left the function here.
          have hBare : '=' ∉ p :=
            (splitOnce_eq_none_iff '=' p).mp hSplit
          have hEntry : entry p = none := by
            simp [entry, hSplit]
          have hNames : namesSession p = false := by
            simp [namesSession, hEntry]
          have hFind : findSession (p :: rest) = none := by
            simp [findSession, hSplit]
          have hNotPaired : ¬Paired (p :: rest) := by
            intro hPaired
            exact hBare (hPaired p (by simp [hNames]))
          rw [hFind]
          exact ⟨fun h => Or.inl h.symm,
            fun h => (h.resolve_right hNotPaired).symm⟩
      | some parts =>
          obtain ⟨name, value⟩ := parts
          have hEntry :=
            entry_of_splitOnce
              (hPlain p List.mem_cons_self) hSplit
          by_cases hName : trim name = clerkSessionCookie
          · have hNames : namesSession p = true := by
              simp [namesSession, hEntry, hName]
            have hPaired : Paired (p :: rest) := by
              intro q hQ
              simp [hNames] at hQ
            have hFirst :
                firstSession (p :: rest) = some (trim value) := by
              simp [firstSession, hEntry, hName]
            have hFind :
                findSession (p :: rest) = some (trim value) := by
              simp [findSession, hSplit, hName]
            exact ⟨fun _ => Or.inr hPaired,
              fun _ => hFind.trans hFirst.symm⟩
          · have hNames : namesSession p = false := by
              simp [namesSession, hEntry, hName]
            have hFirst :
                firstSession (p :: rest) = firstSession rest := by
              simp [firstSession, hEntry, hName]
            have hFind :
                findSession (p :: rest) = findSession rest := by
              simp [findSession, hSplit, hName]
            have hEquals : '=' ∈ p := by
              obtain ⟨hP, -⟩ := splitOnce_eq_some hSplit
              simp [hP]
            have hPaired : Paired (p :: rest) ↔ Paired rest := by
              simp [Paired, hNames, hEquals]
            rw [hFind, hFirst, hPaired]
            exact hRest

--------------------
-- Cookie Headers
--------------------

/- The visible characters of ASCII, and the tab. -/
theorem isWhitespace_visible :
    ∀ n < 127, n = 9 ∨ 32 ≤ n →
      isWhitespace (Char.ofNat n) = isSpace (Char.ofNat n) := by
  decide

/- What reads as text has no spaces but these two. -/
theorem isWhitespace_of_toStr
    {value : List UInt8}
    {text : List Char}
    (hText : toStr value = some text) :
    text = characters value ∧
      ∀ c ∈ text, isWhitespace c = isSpace c := by
  unfold toStr at hText
  split at hText
  · rename_i hVisible
    cases hText
    refine ⟨rfl, ?_⟩
    intro c hC
    obtain ⟨b, hB, rfl⟩ := List.mem_map.mp hC
    have hByte :=
      of_decide_eq_true (List.all_eq_true.mp hVisible b hB)
    rcases hByte with rfl | ⟨hLow, hHigh⟩
    · decide
    · exact isWhitespace_visible b.toNat hHigh (Or.inr hLow)
  · cases hText

/-
  The session a header stores is found if and only if the
  header stores none or nothing disturbs the search for it.
-/
theorem sessionCookie_exact_iff
    (headers : Headers)
    (value : List UInt8)
    (hCookie : headers.lookup "cookie" = some value) :
    sessionCookie headers = storedSession value ↔
      (∀ piece ∈ pieces value, namesSession piece = false) ∨
        Undisturbed value := by
  rw [← firstSession_eq_none_iff]
  cases hText : toStr value with
  | none =>
      have hFind : sessionCookie headers = none := by
        simp [sessionCookie, hCookie, hText]
      have hNot : ¬Undisturbed value := by
        intro hUndisturbed
        have hReadable := hUndisturbed.readable
        rw [hText] at hReadable
        cases hReadable
      rw [hFind]
      exact ⟨fun h => Or.inl h.symm,
        fun h => (h.resolve_right hNot).symm⟩
  | some text =>
      obtain ⟨hChars, hPlain⟩ := isWhitespace_of_toStr hText
      have hFind :
          sessionCookie headers = findSession (pieces value) := by
        simp [sessionCookie, hCookie, hText, pieces, hChars]
      have hUndisturbed :
          Undisturbed value ↔ Paired (pieces value) :=
        ⟨fun h => h.paired, fun h => ⟨by rw [hText, hChars], h⟩⟩
      rw [hFind, hUndisturbed]
      refine findSession_eq_iff ?_
      intro p hP c hC
      apply hPlain
      rw [hChars]
      exact mem_of_mem_splitOn hP hC

/- A session between two other cookies is found. -/
theorem sessionCookie_exact_iff_between :
    sessionCookie
        [("cookie", asBytes "a=1; __session = x ;b".toList)] =
      some "x".toList := by
  refine ((sessionCookie_exact_iff _
    (asBytes "a=1; __session = x ;b".toList) rfl).mpr
      (Or.inr ⟨?_, ?_⟩)).trans ?_
  · decide
  · decide
  · decide

/- A bare token before the session signs the user out. -/
theorem sessionCookie_hidden :
    ∃ headers value,
      headers.lookup "cookie" = some value ∧
        storedSession value = some "x".toList ∧
        sessionCookie headers = none ∧
        clerkToken headers = none := by
  refine ⟨[("cookie", asBytes "theme; __session=x".toList)],
    asBytes "theme; __session=x".toList, rfl, ?_, ?_, ?_⟩
  · decide
  · decide
  · decide

end Session

end SentinelCommand
