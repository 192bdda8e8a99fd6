import SentinelCommand.Lib.Machine
import SentinelCommand.Text

/-
  `verify_svix` of `webhooks.rs` with the base64 and the HMAC
  of `crypto.rs`; SHA-256 is a parameter.

  A header's value is its bytes; what is read as text is
  ASCII. The age of a delivery is a 64-bit difference of a
  clock and an unauthenticated header.

  Key definitions include:
    * `Svix.base64StandardDecode`, `Svix.base64Standard`
    * `Svix.hmacSha256`

  Correctness is proven by:
    * `Svix.verifySvix_of_ageFits`
    * `Svix.verifySvix_exact_iff`
-/

--------------------
-- Base64 and HMAC
--------------------

namespace SentinelCommand

namespace Svix

def standard : List Char :=
  ("ABCDEFGHIJKLMNOPQRSTUVWXYZ" ++
    "abcdefghijklmnopqrstuvwxyz" ++ "0123456789+/").toList

/- The bytes read so far, with the bits not used yet. -/
def decodeFrom :
    List Char → Nat → Nat → List UInt8 → Option (List UInt8)
| [], _, _, out => some out
| c :: rest, buf, bits, out =>
    if c = '=' then
      some out
    else
      match standard.idxOf? c with
      | none => none
      | some val =>
          let buf := (buf <<< 6) % 2 ^ 32 ||| val
          let bits := bits + 6
          if bits ≥ 8 then
            decodeFrom rest buf (bits - 8)
              (out ++ [UInt8.ofNat (buf >>> (bits - 8))])
          else
            decodeFrom rest buf bits out

/- Padding ends the input; any other character refuses it. -/
def base64StandardDecode
    (input : List Char) : Option (List UInt8) :=
  decodeFrom input 0 0 []

/- One of the four symbols of a chunk, padded past its end. -/
def symbol (chunk : List UInt8) (i : Nat) : Char :=
  let byte (k : Nat) : Nat := (chunk.getD k 0).toNat
  let n := byte 0 <<< 16 ||| byte 1 <<< 8 ||| byte 2
  if i ≤ chunk.length then
    standard.getD (n >>> (18 - 6 * i) &&& 63) 'A'
  else
    '='

def quad (chunk : List UInt8) : List Char :=
  [symbol chunk 0, symbol chunk 1, symbol chunk 2,
    symbol chunk 3]

/- `bytes.chunks(3)`, each as four symbols. -/
def base64Standard : List UInt8 → List Char
| [] => []
| [a] => quad [a]
| [a, b] => quad [a, b]
| a :: b :: c :: rest => quad [a, b, c] ++ base64Standard rest

example : base64Standard [104, 105] = "aGk=".toList := by
  decide

example : base64StandardDecode "aGk=".toList =
    some [104, 105] := by
  decide

/- `hmac_sha256`: blocks of 64 bytes. -/
def hmacSha256
    (sha256 : List UInt8 → List UInt8)
    (key message : List UInt8) : List UInt8 :=
  let key := if key.length > 64 then sha256 key else key
  let key := (key ++ List.replicate 64 0).take 64
  let ipad := key.map (· ^^^ 0x36)
  let opad := key.map (· ^^^ 0x5c)
  sha256 (opad ++ sha256 (ipad ++ message))

/- The headers of a request, in their order. -/
abbrev Headers : Type :=
  List (String × List UInt8)

/- `HeaderValue::to_str`: visible ASCII and tabs. -/
def toStr (value : List UInt8) : Option (List Char) :=
  if value.all (fun b => b = 9 ∨ (32 ≤ b ∧ b < 127)) then
    some (value.map (fun b => Char.ofNat b.toNat))
  else
    none

/- A header under either spelling, empty without one. -/
def header (headers : Headers) (a b : String) : List Char :=
  ((headers.lookup a <|> headers.lookup b).bind toStr).getD []

/- The bytes of ASCII text. -/
def asBytes (text : List Char) : List UInt8 :=
  text.map (fun c => UInt8.ofNat c.toNat)

open Machine Text

def toleranceSeconds : Int := 5 * 60

variable (sha256 : List UInt8 → List UInt8)

/- The signing key, without the prefix of the secret. -/
def signingKey (secret : List Char) : Option (List UInt8) :=
  base64StandardDecode
    ((stripPrefix "whsec_".toList secret).getD secret)

/- The signature expected of `id.timestamp.body`. -/
def expected
    (key : List UInt8)
    (id timestamp : List Char)
    (body : List UInt8) : List Char :=
  base64Standard
    (hmacSha256 sha256 key
      (asBytes id ++ [46] ++ asBytes timestamp ++ [46] ++ body))

def verifySvix
    (build : Build)
    (secret : List Char)
    (headers : Headers)
    (body : List UInt8)
    (now : Int) : Computed Bool :=
  let id := header headers "svix-id" "webhook-id"
  let timestamp :=
    header headers "svix-timestamp" "webhook-timestamp"
  let signature :=
    header headers "svix-signature" "webhook-signature"
  if id = [] ∨ timestamp = [] ∨ signature = [] then
    pure false
  else
    match parseI64 timestamp with
    | none => pure false
    | some ts => do
        let span ← sub build now ts
        let age ← Machine.abs build span
        if age > toleranceSeconds then
          pure false
        else
          match signingKey secret with
          | none => pure false
          | some key =>
              let wanted :=
                expected sha256 key id timestamp body
              pure
                ((signature.splitOn ' ').any
                  (fun part =>
                    (stripPrefix "v1,".toList part).any
                      (· = wanted)))

/-
  A delivery with all three headers, a timestamp within the
  tolerance of now over the integers, and one `v1` entry that
  is the signature of what was sent.
-/
structure Accepts
    (secret : List Char)
    (headers : Headers)
    (body : List UInt8)
    (now : Int) : Prop where
  id_present : header headers "svix-id" "webhook-id" ≠ []
  timestamp_present :
    header headers "svix-timestamp" "webhook-timestamp" ≠ []
  signature_present :
    header headers "svix-signature" "webhook-signature" ≠ []
  fresh :
    ∃ ts,
      parseI64
          (header headers "svix-timestamp"
            "webhook-timestamp") = some ts ∧
        |now - ts| ≤ toleranceSeconds
  signed :
    ∃ key,
      signingKey secret = some key ∧
        "v1,".toList ++
            expected sha256 key
              (header headers "svix-id" "webhook-id")
              (header headers "svix-timestamp"
                "webhook-timestamp")
              body ∈
          (header headers "svix-signature"
            "webhook-signature").splitOn ' '

/-
  Where all three headers are present and the timestamp is a
  64-bit integer, its distance from now has 63 bits.
-/
def AgeFits (headers : Headers) (now : Int) : Prop :=
  header headers "svix-id" "webhook-id" ≠ [] →
    header headers "svix-signature" "webhook-signature" ≠ [] →
      ∀ ts,
        parseI64
            (header headers "svix-timestamp"
              "webhook-timestamp") = some ts →
          |now - ts| ≤ i64Max

theorem any_entry_iff
    (signature wanted : List Char) :
    (signature.splitOn ' ').any
        (fun part =>
          (stripPrefix "v1,".toList part).any
            (· = wanted)) = true ↔
      "v1,".toList ++ wanted ∈ signature.splitOn ' ' := by
  rw [List.any_eq_true]
  constructor
  · rintro ⟨part, hPart, hEntry⟩
    obtain ⟨rest, hRest, hSame⟩ := (Option.any_eq_true _ _).mp hEntry
    rw [decide_eq_true_eq] at hSame
    rw [← hSame, ← (stripPrefix_eq_some_iff _ _ _).mp hRest]
    exact hPart
  · intro hMem
    refine ⟨_, hMem, ?_⟩
    rw [(stripPrefix_eq_some_iff _ _ wanted).mpr rfl]
    simp

--------------------
-- Every Delivery
--------------------

variable (build : Build)
variable (secret : List Char)
variable {headers : Headers}
variable (body : List UInt8)
variable (now : Int)

/- A number has no empty text. -/
theorem ne_nil_of_parseI64
    {text : List Char}
    {n : Int}
    (hParse : parseI64 text = some n) :
    text ≠ [] := by
  rintro rfl
  cases hParse

/- Without all headers and a number nothing is accepted. -/
theorem verifySvix_of_incomplete
    (hIncomplete :
      header headers "svix-id" "webhook-id" = [] ∨
        header headers "svix-signature"
          "webhook-signature" = [] ∨
        parseI64
          (header headers "svix-timestamp"
            "webhook-timestamp") = none) :
    verifySvix sha256 build secret headers body now =
        .returns false true ∧
      ¬Accepts sha256 secret headers body now := by
  constructor
  · unfold verifySvix
    dsimp only
    split
    · rfl
    · rename_i hPresent
      rcases hIncomplete with hId | hSignature | hParse
      · exact absurd (Or.inl hId) hPresent
      · exact absurd (Or.inr (Or.inr hSignature)) hPresent
      · rw [hParse]
        rfl
  · intro hAccepts
    obtain ⟨ts, hTs, _⟩ := hAccepts.fresh
    rcases hIncomplete with hId | hSignature | hParse
    · exact hAccepts.id_present hId
    · exact hAccepts.signature_present hSignature
    · rw [hParse] at hTs
      cases hTs

/- With them, the age is computed and the rest compared. -/
theorem verifySvix_of_complete
    {ts : Int}
    (hId : header headers "svix-id" "webhook-id" ≠ [])
    (hSignature :
      header headers "svix-signature"
        "webhook-signature" ≠ [])
    (hTs :
      parseI64
        (header headers "svix-timestamp"
          "webhook-timestamp") = some ts) :
    verifySvix sha256 build secret headers body now =
      (do
        let span ← sub build now ts
        let age ← Machine.abs build span
        if age > toleranceSeconds then
          pure false
        else
          match signingKey secret with
          | none => pure false
          | some key =>
              pure
                (((header headers "svix-signature"
                  "webhook-signature").splitOn ' ').any
                  (fun part =>
                    (stripPrefix "v1,".toList part).any
                      (· =
                        expected sha256 key
                          (header headers "svix-id"
                            "webhook-id")
                          (header headers "svix-timestamp"
                            "webhook-timestamp")
                          body)))) := by
  have hPresent :
      ¬(header headers "svix-id" "webhook-id" = [] ∨
        header headers "svix-timestamp"
          "webhook-timestamp" = [] ∨
        header headers "svix-signature"
          "webhook-signature" = []) := by
    rintro (hNone | hNone | hNone)
    · exact hId hNone
    · exact ne_nil_of_parseI64 hTs hNone
    · exact hSignature hNone
  unfold verifySvix
  dsimp only
  rw [if_neg hPresent, hTs]

/- A span of 63 bits is subtracted and measured exactly. -/
theorem age_exact
    {now ts : Int}
    (hFits : |now - ts| ≤ i64Max) :
    sub build now ts = .returns (now - ts) true ∧
      Machine.abs build (now - ts) =
        .returns |now - ts| true := by
  have hBounds := abs_le.mp hFits
  have hPos := abs_nonneg (now - ts)
  have hSpan : InI64 (now - ts) := by
    unfold InI64 i64Min i64Max at *
    omega
  have hAge : InI64 |now - ts| := by
    unfold InI64 i64Min i64Max at *
    omega
  exact ⟨settle_of_inI64 build hSpan, settle_of_inI64 build hAge⟩

theorem accepts_iff
    {ts : Int}
    (hId : header headers "svix-id" "webhook-id" ≠ [])
    (hSignature :
      header headers "svix-signature"
        "webhook-signature" ≠ [])
    (hTs :
      parseI64
        (header headers "svix-timestamp"
          "webhook-timestamp") = some ts) :
    Accepts sha256 secret headers body now ↔
      |now - ts| ≤ toleranceSeconds ∧
        ∃ key,
          signingKey secret = some key ∧
            "v1,".toList ++
                expected sha256 key
                  (header headers "svix-id" "webhook-id")
                  (header headers "svix-timestamp"
                    "webhook-timestamp")
                  body ∈
              (header headers "svix-signature"
                "webhook-signature").splitOn ' ' := by
  constructor
  · intro hAccepts
    obtain ⟨other, hOther, hFresh⟩ := hAccepts.fresh
    rw [hTs] at hOther
    cases hOther
    exact ⟨hFresh, hAccepts.signed⟩
  · rintro ⟨hFresh, hSigned⟩
    exact
      ⟨hId, ne_nil_of_parseI64 hTs, hSignature,
        ⟨ts, hTs, hFresh⟩, hSigned⟩

/-
  When the age fits, the answer is reached exactly, and it is
  that of the integers.
-/
theorem verifySvix_of_ageFits
    (hFits : AgeFits headers now) :
    ∃ answer,
      verifySvix sha256 build secret headers body now =
          .returns answer true ∧
        (answer = true ↔
          Accepts sha256 secret headers body now) := by
  by_cases hId : header headers "svix-id" "webhook-id" = []
  · have hNone :=
      verifySvix_of_incomplete sha256 build secret body
        now (Or.inl hId)
    exact ⟨false, hNone.1, by simp [hNone.2]⟩
  by_cases hSignature :
    header headers "svix-signature" "webhook-signature" = []
  · have hNone :=
      verifySvix_of_incomplete sha256 build secret body
        now (Or.inr (Or.inl hSignature))
    exact ⟨false, hNone.1, by simp [hNone.2]⟩
  cases hTs :
    parseI64
      (header headers "svix-timestamp" "webhook-timestamp") with
  | none =>
      have hNone :=
        verifySvix_of_incomplete sha256 build secret body
          now (Or.inr (Or.inr hTs))
      exact ⟨false, hNone.1, by simp [hNone.2]⟩
  | some ts =>
      obtain ⟨hSpan, hAge⟩ :=
        age_exact build (hFits hId hSignature ts hTs)
      rw [verifySvix_of_complete sha256 build secret body now
        hId hSignature hTs, hSpan, Computed.returns_bind, hAge,
        Computed.returns_bind,
        accepts_iff sha256 secret body now hId hSignature hTs]
      by_cases hStale : |now - ts| > toleranceSeconds
      · rw [if_pos hStale]
        refine ⟨false, rfl, ?_⟩
        simp [Int.not_le.mpr hStale]
      · rw [if_neg hStale]
        cases hKey : signingKey secret with
        | none =>
            exact ⟨false, rfl, by simp⟩
        | some key =>
            refine ⟨_, rfl, ?_⟩
            rw [any_entry_iff]
            simp [Int.not_lt.mp hStale]

/-
  In either build the answer is that of the integers, with no
  panic and no wrapped value, exactly when the age fits.
-/
theorem verifySvix_exact_iff :
    (∃ answer,
        verifySvix sha256 build secret headers body now =
            .returns answer true ∧
          (answer = true ↔
            Accepts sha256 secret headers body now)) ↔
      AgeFits headers now := by
  constructor
  · rintro ⟨answer, hExact, _⟩ hId hSignature ts hTs
    rw [verifySvix_of_complete sha256 build secret body now
      hId hSignature hTs] at hExact
    obtain ⟨span, hSpan, hRest⟩ :=
      (Computed.bind_eq_exact_iff _ _ answer).mp hExact
    obtain ⟨age, hAge, _⟩ :=
      (Computed.bind_eq_exact_iff _ _ answer).mp hRest
    have hSame := ((settle_eq_exact_iff _ _ _).mp hSpan).2
    have hRange := ((settle_eq_exact_iff _ _ _).mp hAge).1
    rw [hSame] at hRange
    exact hRange.2
  · intro hFits
    exact
      verifySvix_of_ageFits sha256 build secret body now hFits

/-
  In a release build an age of 2^63 wraps to the least number
  and passes for fresh, whatever the tolerance.
-/
theorem verifySvix_release_of_wrapped
    {ts : Int}
    {key : List UInt8}
    (hId : header headers "svix-id" "webhook-id" ≠ [])
    (hTs :
      parseI64
        (header headers "svix-timestamp"
          "webhook-timestamp") = some ts)
    (hKey : signingKey secret = some key)
    (hAge : now - ts = 9223372036854775808)
    (hSigned :
      "v1,".toList ++
          expected sha256 key
            (header headers "svix-id" "webhook-id")
            (header headers "svix-timestamp"
              "webhook-timestamp")
            body ∈
        (header headers "svix-signature"
          "webhook-signature").splitOn ' ')
    (hSignature :
      header headers "svix-signature"
        "webhook-signature" ≠ []) :
    verifySvix sha256 .release secret headers body now =
      .returns true false := by
  rw [verifySvix_of_complete sha256 .release secret body now
    hId hSignature hTs]
  have hSpan :
      sub .release now ts = .returns i64Min false := by
    unfold sub
    rw [hAge]
    rfl
  have hAbs :
      Machine.abs .release i64Min = .returns i64Min false := by
    rfl
  have hFresh : ¬i64Min > toleranceSeconds := by decide
  have hMatch := (any_entry_iff _ _).mpr hSigned
  rw [hSpan]
  change Computed.bind (.returns i64Min false) _ = _
  unfold Computed.bind
  dsimp only
  rw [hAbs, hKey]
  change
    (match
        Computed.bind (.returns i64Min false)
          (fun age =>
            if age > toleranceSeconds then
              Computed.returns false true
            else
              .returns _ true) with
      | .panics => Computed.panics
      | .returns b exact => .returns b (false && exact)) = _
  unfold Computed.bind
  dsimp only
  rw [if_neg hFresh]
  dsimp only
  rw [hMatch]
  rfl

/- The least 64-bit timestamp, which needs no valid signature. -/
theorem not_exact_leastTimestamp :
    let headers : Headers :=
      [ ("svix-id", asBytes "msg_1".toList),
        ("svix-timestamp",
          asBytes "-9223372036854775808".toList),
        ("svix-signature", asBytes "v1,AAAA".toList) ]
    let sha256 : List UInt8 → List UInt8 := fun _ => []
    verifySvix sha256 .debug "whsec_AAAA".toList headers []
        1767225600 = .panics ∧
      verifySvix sha256 .release "whsec_AAAA".toList headers
        [] 1767225600 = .returns false false := by
  decide

end Svix

end SentinelCommand
