import SentinelCommand.Crypto.Compact

/-
  The signed link of `email_unsubscribe.rs`: tokens are put
  together by hand and read by a library, which is a parameter
  here, as are SHA-256 and the tables of Unicode.

  The claims are the compact JSON of an object, so that they
  are read back as that object whatever its texts hold.

  Key definitions include:
    * `Text.toLowercase`
    * `Unsubscribe.makeToken`, `Unsubscribe.verifyToken`

  Correctness is proven by:
    * `Unsubscribe.compact_token`
    * `Unsubscribe.tokens_bind`
-/

--------------------
-- Lower Case
--------------------

namespace SentinelCommand

namespace Text

/- The tables that `str::to_lowercase` reads. -/
structure CaseTables where
  lower : Char → Char × List Char
  cased : Char → Bool
  ignorable : Char → Bool

/- Characters without a case, and then one that has it. -/
def ignorableThenCased
    (tables : CaseTables)
    (text : List Char) : Bool :=
  match text.dropWhile tables.ignorable with
  | [] => false
  | c :: _ => tables.cased c

/- A sigma at the end of a word has a form of its own. -/
def lowerFrom
    (tables : CaseTables)
    (before : List Char) : List Char → List Char
| [] => []
| c :: rest =>
    let lowered :=
      if c = 'Σ' then
        if ignorableThenCased tables before ∧
            ignorableThenCased tables rest = false then
          ['ς']
        else
          ['σ']
      else
        (tables.lower c).1 :: (tables.lower c).2
    lowered ++ lowerFrom tables (c :: before) rest

/- `str::to_lowercase`. -/
def toLowercase
    (tables : CaseTables)
    (text : List Char) : List Char :=
  lowerFrom tables [] text

theorem toLowercase_ne_nil
    (tables : CaseTables)
    {text : List Char}
    (hText : text ≠ []) :
    toLowercase tables text ≠ [] := by
  cases text with
  | nil => exact absurd rfl hText
  | cons c rest =>
      rw [toLowercase, lowerFrom]
      split
      · split
        · exact List.cons_ne_nil _ _
        · exact List.cons_ne_nil _ _
      · exact List.cons_ne_nil _ _

end Text

end SentinelCommand

--------------------
-- Tokens
--------------------

namespace SentinelCommand

namespace Unsubscribe

open Agent Base64 Jwt Machine Svix

def tokenTtlSeconds : Int := 400 * 24 * 3600

def subject : String := "email-unsubscribe"

variable (tables : Text.CaseTables)
variable (sha256 : List UInt8 → List UInt8)

/- The recipient as it is signed. -/
def normalized (recipient : String) : String :=
  String.ofList
    (Text.toLowercase tables (Text.trim recipient.toList))

def headerText : String :=
  "\x7b\"alg\":\"HS256\",\"typ\":\"JWT\"\x7d"

def claimsText
    (orgId kind recipient : String)
    (now exp : Int) : String :=
  "\x7b\"org_id\":" ++ pythonJsonString orgId ++ ",\"kind\":" ++
    pythonJsonString kind ++ ",\"rcpt\":" ++
    pythonJsonString (normalized tables recipient) ++
    ",\"iat\":" ++ toString now ++ ",\"exp\":" ++ toString exp ++
    ",\"sub\":" ++ pythonJsonString subject ++ "\x7d"

/- What is signed; both of its texts are ASCII. -/
def message
    (orgId kind recipient : String)
    (now exp : Int) : List Char :=
  base64UrlNopad (asBytes headerText.toList) ++
    '.' :: base64UrlNopad
      (asBytes
        (claimsText tables orgId kind recipient now exp).toList)

/- `make_token`, with the secret by its bytes. -/
def makeToken
    (build : Build)
    (secret : List UInt8)
    (orgId kind recipient : String)
    (now : Int) : Computed (Option (List Char)) :=
  if secret = [] then
    pure none
  else do
    let exp ← Machine.add build now tokenTtlSeconds
    let signed := message tables orgId kind recipient now exp
    let signature :=
      base64UrlNopad (hmacSha256 sha256 secret (asBytes signed))
    pure (some (signed ++ '.' :: signature))

open Jwt

structure Claims where
  orgId : String
  kind : String
  rcpt : String
  sub : String

/- A field of text, empty where it is missing. -/
def textField (fields : Fields) (key : String) : Option String :=
  match fields.filter (fun field => field.1 = key) with
  | [] => some ""
  | [(_, .string text)] => some text
  | _ => none

def textItem (items : List Json) (i : Nat) : Option String :=
  match items[i]? with
  | none => some ""
  | some (.string text) => some text
  | some _ => none

/- The derived reader also takes the fields as an array. -/
def Claims.deserialize : Json → Option Claims
| .object fields =>
    match textField fields "org_id", textField fields "kind",
      textField fields "rcpt", textField fields "sub" with
    | some orgId, some kind, some rcpt, some sub =>
        some ⟨orgId, kind, rcpt, sub⟩
    | _, _, _, _ => none
| .array items =>
    if items.length ≤ 4 then
      match textItem items 0, textItem items 1,
        textItem items 2, textItem items 3 with
      | some orgId, some kind, some rcpt, some sub =>
          some ⟨orgId, kind, rcpt, sub⟩
      | _, _, _, _ => none
    else
      none
| _ => none

def validation : Validation where
  algorithm := "HS256"
  leeway := 0
  validateAud := false
  requiredSpecClaims := ["exp"]

/- `verify_token` at a time of the library's clock. -/
def verifyToken
    (decode : Decoder)
    (secret : List UInt8)
    (token : List Char)
    (time : Nat) : Option (String × String × String) :=
  if token = [] then
    none
  else if secret = [] then
    none
  else
    match
      (decode validation secret token time).bind
        Claims.deserialize with
    | none => none
    | some claims =>
        if claims.sub ≠ subject then
          none
        else if claims.orgId = "" ∨ claims.kind = "" ∨
            claims.rcpt = "" then
          none
        else
          some (claims.orgId, claims.kind, claims.rcpt)

--------------------
-- What Is Signed
--------------------

open Agent Audit Base64 Json Jwt Machine Svix

/- The claims as a value. -/
def claims
    (orgId kind recipient : String)
    (now exp : Int) : Fields :=
  [ ("org_id", .string orgId),
    ("kind", .string kind),
    ("rcpt", .string (normalized tables recipient)),
    ("iat", .integer now),
    ("exp", .integer exp),
    ("sub", .string subject) ]

theorem exact_claims
    (orgId kind recipient : String)
    (now exp : Int) :
    Exact (.object (claims tables orgId kind recipient now exp)) :=
  ⟨trivial, trivial, trivial, trivial, trivial, trivial, trivial⟩

theorem toList_pythonJsonString (text : String) :
    (pythonJsonString text).toList =
      quotationMark :: text.toList.flatMap pythonJsonChar ++
        [quotationMark] := by
  rw [pythonJsonString, String.toList_ofList]

theorem toList_claimsText
    (orgId kind recipient : String)
    (now exp : Int) :
    (claimsText tables orgId kind recipient now exp).toList =
      spelled []
        (.object (claims tables orgId kind recipient now exp)) := by
  have hOrgId :
      "\x7b\"org_id\":".toList =
        openBrace ::
          ((pythonJsonString "org_id").toList ++ [':']) := by
    rw [toList_pythonJsonString]
    rfl
  have hKind :
      ",\"kind\":".toList =
        ',' :: ((pythonJsonString "kind").toList ++ [':']) := by
    rw [toList_pythonJsonString]
    rfl
  have hRcpt :
      ",\"rcpt\":".toList =
        ',' :: ((pythonJsonString "rcpt").toList ++ [':']) := by
    rw [toList_pythonJsonString]
    rfl
  have hIat :
      ",\"iat\":".toList =
        ',' :: ((pythonJsonString "iat").toList ++ [':']) := by
    rw [toList_pythonJsonString]
    rfl
  have hExp :
      ",\"exp\":".toList =
        ',' :: ((pythonJsonString "exp").toList ++ [':']) := by
    rw [toList_pythonJsonString]
    rfl
  have hSub :
      ",\"sub\":".toList =
        ',' :: ((pythonJsonString "sub").toList ++ [':']) := by
    rw [toList_pythonJsonString]
    rfl
  have hNow : spelled [] (.integer now) = (toString now).toList :=
    rfl
  have hEnd : spelled [] (.integer exp) = (toString exp).toList :=
    rfl
  have hText :
      ∀ text : String,
        spelled [] (.string text) = (pythonJsonString text).toList :=
    fun _ => rfl
  unfold claimsText claims spelled
  simp only [spelledFields, String.toList_append, hText, hNow,
    hEnd, hOrgId, hKind, hRcpt, hIat, hExp, hSub,
    List.intercalate_cons_cons, List.intercalate_singleton,
    List.append_assoc, List.cons_append, List.nil_append]
  rfl

/- The texts that are signed are read back, whatever they hold. -/
theorem claimsText_read
    (orgId kind recipient : String)
    (now exp : Int) :
    Ascii (claimsText tables orgId kind recipient now exp).toList ∧
      Reader.parse
          (claimsText tables orgId kind recipient now exp).toList =
        some
          (.object (claims tables orgId kind recipient now exp)) := by
  have hExact := exact_claims tables orgId kind recipient now exp
  rw [toList_claimsText]
  exact ⟨ascii_spelled ascii_nil _ hExact,
    parse_spelled blank_nil hExact⟩

theorem headerText_read :
    Ascii headerText.toList ∧
      Reader.parse headerText.toList = some Jwt.header := by
  have hText : headerText.toList = spelled [] Jwt.header := by
    have hSpelled :
        ∀ text : String,
          spelled [] (.string text) =
            (pythonJsonString text).toList :=
      fun _ => rfl
    unfold Jwt.header spelled
    simp only [spelledFields, hSpelled, toList_pythonJsonString]
    rfl
  have hExact : Exact Jwt.header :=
    ⟨trivial, trivial, trivial⟩
  rw [hText]
  exact ⟨ascii_spelled ascii_nil _ hExact,
    parse_spelled blank_nil hExact⟩

/- What is minted is a compact token of its claims. -/
theorem compact_token
    (secret : List UInt8)
    (orgId kind recipient : String)
    (now exp : Int) :
    Compact sha256 secret
      (message tables orgId kind recipient now exp ++
        '.' :: base64UrlNopad
          (hmacSha256 sha256 secret
            (asBytes
              (message tables orgId kind recipient now exp))))
      (.object (claims tables orgId kind recipient now exp)) := by
  obtain ⟨hHead, hHeadParsed⟩ := headerText_read
  obtain ⟨hText, hParsed⟩ :=
    claimsText_read tables orgId kind recipient now exp
  rw [message, List.append_assoc, List.cons_append]
  exact .signed (dot_not_mem_base64UrlNopad _)
    (dot_not_mem_base64UrlNopad _)
    (dot_not_mem_base64UrlNopad _)
    (urlDecode_base64UrlNopad _) hHead hHeadParsed
    (urlDecode_base64UrlNopad _) hText hParsed
    (urlDecode_base64UrlNopad _)

theorem plain_claims
    (orgId kind recipient : String)
    {now exp : Int}
    (hNow : InI64 now)
    (hExp : InI64 exp) :
    Plain (claims tables orgId kind recipient now exp) := by
  intro field hField
  simp only [claims, List.mem_cons, List.not_mem_nil, or_false]
    at hField
  rcases hField with h | h | h | h | h | h
  · rw [h]
    exact .inl ⟨_, rfl⟩
  · rw [h]
    exact .inl ⟨_, rfl⟩
  · rw [h]
    exact .inl ⟨_, rfl⟩
  · rw [h]
    exact .inr ⟨_, rfl, hNow⟩
  · rw [h]
    exact .inr ⟨_, rfl, hExp⟩
  · rw [h]
    exact .inl ⟨_, rfl⟩

theorem keys_claims
    (orgId kind recipient : String)
    (now exp : Int) :
    ((claims tables orgId kind recipient now exp).map
      Prod.fst).Nodup := by
  change
    ["org_id", "kind", "rcpt", "iat", "exp", "sub"].Nodup
  decide

theorem deserialize_claims
    (orgId kind recipient : String)
    (now exp : Int) :
    Claims.deserialize
        (.object (claims tables orgId kind recipient now exp)) =
      some ⟨orgId, kind, normalized tables recipient, subject⟩ :=
  rfl

theorem normalized_ne_empty
    {recipient : String}
    (hRecipient : Text.trim recipient.toList ≠ []) :
    normalized tables recipient ≠ "" := by
  intro hEmpty
  have hText := congrArg String.toList hEmpty
  rw [normalized, String.toList_ofList] at hText
  exact Text.toLowercase_ne_nil tables hRecipient hText

--------------------
-- Round Trip and Binding
--------------------

/- A token that is minted of these, by any build at any time. -/
def Mints
    (orgId kind recipient : String)
    (token : List Char) : Prop :=
  ∃ build secret now exact,
    makeToken tables sha256 build secret orgId kind recipient
        now =
      .returns (some token) exact

/- What the last segment of a token is the signature of. -/
def Signs (token signed : List Char) : Prop :=
  ∃ signature, token = signed ++ '.' :: signature ∧
    '.' ∉ signature

theorem makeToken_eq
    (build : Build)
    {secret : List UInt8}
    (hSecret : secret ≠ [])
    (orgId kind recipient : String)
    (now : Int) :
    makeToken tables sha256 build secret orgId kind recipient
        now =
      (Machine.add build now tokenTtlSeconds).bind
        (fun exp =>
          .returns
            (some
              (message tables orgId kind recipient now exp ++
                '.' :: base64UrlNopad
                  (hmacSha256 sha256 secret
                    (asBytes
                      (message tables orgId kind recipient now
                        exp)))))
            true) := by
  rw [makeToken, if_neg hSecret]
  rfl

theorem exists_message_of_mints
    {orgId kind recipient : String}
    {token : List Char}
    (hMints :
      Mints tables sha256 orgId kind recipient token) :
    ∃ now exp,
      Signs token (message tables orgId kind recipient now exp) := by
  obtain ⟨build, secret, now, exact, hToken⟩ := hMints
  by_cases hSecret : secret = []
  · rw [makeToken, if_pos hSecret] at hToken
    cases hToken
  · rw [makeToken_eq tables sha256 build hSecret] at hToken
    cases hExp : Machine.add build now tokenTtlSeconds with
    | panics =>
        rw [hExp] at hToken
        cases hToken
    | returns exp exactExp =>
        rw [hExp] at hToken
        cases hToken
        exact ⟨now, exp, _, rfl, dot_not_mem_base64UrlNopad _⟩

theorem signs_unique
    {token signed other : List Char}
    (hSigned : Signs token signed)
    (hOther : Signs token other) :
    signed = other := by
  obtain ⟨signature, hToken, hDot⟩ := hSigned
  obtain ⟨signature', hToken', hDot'⟩ := hOther
  rw [hToken] at hToken'
  rcases List.append_eq_append_iff.mp hToken' with
    ⟨middle, hMiddle, hRest⟩ | ⟨middle, hMiddle, hRest⟩
  · cases middle with
    | nil =>
        rw [List.append_nil] at hMiddle
        exact hMiddle.symm
    | cons c middle =>
        obtain ⟨-, hTail⟩ := List.cons.inj hRest
        rw [hTail] at hDot
        exact absurd
          (List.mem_append_right _ List.mem_cons_self) hDot
  · cases middle with
    | nil =>
        rw [List.append_nil] at hMiddle
        exact hMiddle
    | cons c middle =>
        obtain ⟨-, hTail⟩ := List.cons.inj hRest
        rw [hTail] at hDot'
        exact absurd
          (List.mem_append_right _ List.mem_cons_self) hDot'

/- A message is signed of one triple alone, at any times. -/
theorem message_injective
    {orgId kind recipient orgId' kind' recipient' : String}
    {now exp now' exp' : Int}
    (hSame :
      message tables orgId kind recipient now exp =
        message tables orgId' kind' recipient' now' exp') :
    orgId = orgId' ∧ kind = kind' ∧
      normalized tables recipient =
        normalized tables recipient' := by
  obtain ⟨hText, hParsed⟩ :=
    claimsText_read tables orgId kind recipient now exp
  obtain ⟨hText', hParsed'⟩ :=
    claimsText_read tables orgId' kind' recipient' now' exp'
  obtain ⟨-, hSegment⟩ :=
    List.cons.inj (List.append_cancel_left hSame)
  have hBytes := asText_asBytes hText
  rw [base64UrlNopad_injective hSegment, asText_asBytes hText']
    at hBytes
  rw [← Option.some.inj hBytes, hParsed'] at hParsed
  injection hParsed with hClaims
  injection hClaims with hFields
  simp only [claims, List.cons.injEq, Prod.mk.injEq,
    Json.string.injEq, true_and] at hFields
  exact ⟨hFields.1.symm, hFields.2.1.symm, hFields.2.2.1.symm⟩

theorem verifyToken_of_claims
    {decode : Decoder}
    (hDecodes : Decodes sha256 decode)
    {secret : List UInt8}
    (hSecret : secret ≠ [])
    {orgId kind recipient : String}
    (hOrgId : orgId ≠ "")
    (hKind : kind ≠ "")
    (hRecipient : Text.trim recipient.toList ≠ [])
    {now exp : Int}
    (hNow : InI64 now)
    (hExp : InI64 exp)
    {time : Nat}
    (hTime : (time : Int) ≤ exp) :
    verifyToken decode secret
        (message tables orgId kind recipient now exp ++
          '.' :: base64UrlNopad
            (hmacSha256 sha256 secret
              (asBytes
                (message tables orgId kind recipient now exp))))
        time =
      some (orgId, kind, normalized tables recipient) := by
  have hDecoded :=
    hDecodes.accepts validation secret _ _ exp time rfl rfl rfl
      (compact_token tables sha256 secret orgId kind recipient
        now exp)
      (plain_claims tables orgId kind recipient hNow hExp)
      (keys_claims tables orgId kind recipient now exp)
      (by simp [claims])
      (by omega)
      (by
        change (time : Int) ≤ exp + 0
        omega)
  have hClaims :
      ¬ (orgId = "" ∨ kind = "" ∨
        normalized tables recipient = "") := by
    rintro (h | h | h)
    · exact hOrgId h
    · exact hKind h
    · exact normalized_ne_empty tables hRecipient h
  rw [verifyToken, if_neg (List.append_ne_nil_of_right_ne_nil _
    (List.cons_ne_nil _ _)), if_neg hSecret, hDecoded,
    Option.bind_some, deserialize_claims]
  dsimp only
  rw [if_neg (fun h => h rfl), if_neg hClaims]

/-
  A token is read back as what it was minted of, at any time
  before its end, and no other triple is signed as it is.
-/
theorem tokens_bind
    {decode : Decoder}
    (hDecodes : Decodes sha256 decode) :
    (∀ (build : Build) (secret : List UInt8)
      (orgId kind recipient : String) (now : Int),
      secret ≠ [] → orgId ≠ "" → kind ≠ "" →
        Text.trim recipient.toList ≠ [] → InI64 now →
        now + tokenTtlSeconds ≤ i64Max →
          ∃ token,
            makeToken tables sha256 build secret orgId kind
                recipient now =
              .returns (some token) true ∧
            ∀ time : Nat,
              (time : Int) < now + tokenTtlSeconds →
                verifyToken decode secret token time =
                  some
                    (orgId, kind, normalized tables recipient)) ∧
      ∀ (orgId kind recipient orgId' kind' recipient' : String)
        (token token' signed : List Char),
        Mints tables sha256 orgId kind recipient token →
          Mints tables sha256 orgId' kind' recipient' token' →
          Signs token signed → Signs token' signed →
            orgId = orgId' ∧ kind = kind' ∧
              normalized tables recipient =
                normalized tables recipient' := by
  constructor
  · intro build secret orgId kind recipient now hSecret hOrgId
      hKind hRecipient hNow hEnd
    have hExp : InI64 (now + tokenTtlSeconds) := by
      have hLow := hNow.1
      unfold tokenTtlSeconds at hEnd ⊢
      exact ⟨by omega, hEnd⟩
    have hMinted :=
      makeToken_eq tables sha256 build hSecret orgId kind
        recipient now
    rw [Machine.add, settle_of_inI64 build hExp] at hMinted
    refine ⟨_, hMinted, ?_⟩
    intro time hTime
    exact verifyToken_of_claims tables sha256 hDecodes hSecret
      hOrgId hKind hRecipient hNow hExp hTime.le
  · intro orgId kind recipient orgId' kind' recipient' token
      token' signed hMints hMints' hSigns hSigns'
    obtain ⟨now, exp, hMessage⟩ :=
      exists_message_of_mints tables sha256 hMints
    obtain ⟨now', exp', hMessage'⟩ :=
      exists_message_of_mints tables sha256 hMints'
    apply message_injective tables
    exact (signs_unique hMessage hSigns).trans
      (signs_unique hSigns' hMessage')

/- Unicode for text that is ASCII. -/
def asciiTables : Text.CaseTables where
  lower c := (c.toLower, [])
  cased c := c.isAlpha
  ignorable _ := false

theorem tokens_bind_motion :
    ∃ token,
      makeToken asciiTables id .debug [107] "org_1" "motion"
          " A@b.C " 1767225600 =
        .returns (some token) true ∧
      ∀ time : Nat,
        (time : Int) < 1767225600 + tokenTtlSeconds →
          verifyToken (decodeHs256 id) [107] token time =
            some ("org_1", "motion",
              normalized asciiTables " A@b.C ") :=
  (tokens_bind asciiTables id (decodes_decodeHs256 id)).1 .debug
    [107] "org_1" "motion" " A@b.C " 1767225600 (by decide)
    (by decide) (by decide) (by decide) (by decide) (by decide)

/- The end of a token can be out of range. -/
theorem not_minted_at_latest :
    makeToken asciiTables id .debug [107] "org_1" "motion"
        "a@b.c" i64Max =
      .panics ∧
      ¬ ∃ token,
        makeToken asciiTables id .debug [107] "org_1" "motion"
            "a@b.c" i64Max =
          .returns (some token) true := by
  have hPanics :
      makeToken asciiTables id .debug [107] "org_1" "motion"
          "a@b.c" i64Max =
        .panics := by
    rw [makeToken_eq asciiTables id .debug (by decide)]
    rfl
  refine ⟨hPanics, ?_⟩
  intro ⟨token, hToken⟩
  rw [hPanics] at hToken
  cases hToken

end Unsubscribe

end SentinelCommand
