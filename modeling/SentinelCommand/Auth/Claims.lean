import Mathlib.Tactic.Positivity
import Mathlib.Tactic.Ring
import SentinelCommand.Json
import SentinelCommand.Lib.Machine
import SentinelCommand.Text

/-
  `auth/claims.rs`: a verified set of claims becomes an
  `AuthUser`, in the layout with a list of permissions or in
  the one that packs them as a bitmap.

  A bitmap is a 64-bit integer for each feature, whose bit
  `j` grants the permission `j`. Names are any text, with
  colons as well.

  Key definitions include:
    * `Claims.validateClaimTypes`
    * `Claims.decodeV2Permissions`

  Correctness is proven by:
    * `Claims.mem_decodeV2Permissions_iff`
    * `Claims.decodeV2Permissions_exact`
-/

--------------------
-- Users
--------------------

namespace SentinelCommand

namespace Claims

structure AuthUser where
  userId : String
  orgId : String
  orgRole : String
  orgPermissions : List String
  email : String
  username : String
  plan : String
  features : List String
  deriving DecidableEq, Repr

def AuthUser.hasPermission
    (user : AuthUser)
    (permission : String) : Bool :=
  user.orgPermissions.any (· = permission)

/- Admin by role, or by the manage-cameras permission. -/
def AuthUser.isAdmin (user : AuthUser) : Bool :=
  user.orgRole = "org:admin" || user.orgRole = "admin" ||
    user.hasPermission "org:cameras:manage_cameras"

inductive ClaimError where
  | notAuthenticated
  | noOrganization
  | malformed (key : String)
  deriving DecidableEq, Repr

/- Python's falsehood, where its code tests the value. -/
def isFalsy (value : Json) : Bool :=
  !value.truthy

def isString (value : Json) : Bool :=
  value.asStr.isSome

/- A claim that is not there, or null. -/
def absent (claims : Json) (key : String) : Bool :=
  match claims.get key with
  | none => true
  | some .null => true
  | some _ => false

def stringClaim (claims : Json) (key : String) : String :=
  ((claims.get key).bind Json.asStr).getD ""

/- The strings of a claim that is an array. -/
def stringList (claims : Json) (key : String) : List String :=
  (((claims.get key).bind Json.asArray).map
    (·.filterMap Json.asStr)).getD []

/- Refuses claims of types that the readers do not expect. -/
def validateClaimTypes
    (claims : Json) : Except ClaimError Unit := do
  ["sub", "org_id", "org_role", "email", "username"].forM
    (fun key =>
      if !absent claims key && !(claims.get key).any isString
      then
        throw (.malformed key)
      else
        pure ())
  if (claims.get "pla").any
      (fun pla => !isString pla && !isFalsy pla) then
    throw (.malformed "pla")
  if (claims.get "fea").any (fun fea => !isString fea) then
    throw (.malformed "fea")
  ["org_permissions", "permissions"].forM
    (fun key =>
      if
        !absent claims key &&
          !((claims.get key).bind Json.asArray).any
            (·.all isString)
      then
        throw (.malformed key)
      else
        pure ())
  match claims.get "o" with
  | none => pure ()
  | some o =>
      if o.asObject.isNone then
        throw (.malformed "o")
      ["id", "rol", "per", "fpm"].forM
        (fun key =>
          if !absent o key && !(o.get key).any isString then
            throw (.malformed "o")
          else
            pure ())

/- Without the prefix of an organization's entries. -/
def unscoped (entry : List Char) : List Char :=
  (Text.stripPrefix "o:".toList entry).getD entry

def splitScopedList (raw : String) : List String :=
  (((raw.toList.splitOn ',').map Text.trim).filter
    (· ≠ [])).map (fun entry => String.ofList (unscoped entry))

open Machine

/- The names of permissions, in the order of their bits. -/
def permissionNames (perStr : String) : List (List Char) :=
  perStr.toList.splitOn ','

/- The features, in the order of their bitmaps. -/
def featureNames (fea : String) : List (List Char) :=
  (fea.toList.splitOn ',').map unscoped

/- The bitmaps, none of them when one is no number. -/
def fpmValues (fpmStr : String) : List Int :=
  if fpmStr = "" then
    []
  else
    ((fpmStr.toList.splitOn ',').mapM parseI64).getD []

/- `fpm & (1i64 << j) != 0`. -/
def hasBit (fpm : Int) (j : Nat) : Bool :=
  BitVec.ofInt 64 fpm &&& (1#64 <<< j) ≠ 0#64

/- `org:{feature}:{perm}`. -/
def permissionKey (feature perm : List Char) : String :=
  String.ofList
    ("org:".toList ++ feature ++ ':' :: perm)

/- The keys of every feature with a bitmap, by its bits. -/
def keysOf
    (features permissions : List (List Char))
    (fpms : List Int) : List String :=
  features.zipIdx.flatMap
    (fun (feature, i) =>
      match fpms[i]? with
      | none => []
      | some fpm =>
          permissions.zipIdx.filterMap
            (fun (perm, j) =>
              if j < 63 && hasBit fpm j then
                some (permissionKey feature perm)
              else
                none))

def decodeV2Permissions (claims : Json) : List String :=
  let fea := stringClaim claims "fea"
  match claims.get "o" with
  | none => []
  | some o =>
      if fea = "" ∨ o.asObject = none then
        []
      else
        let perStr := stringClaim o "per"
        if perStr = "" then
          []
        else
          keysOf (featureNames fea) (permissionNames perStr)
            (fpmValues (stringClaim o "fpm"))

/- The first list that is not empty, else the bitmap's keys. -/
def orgPermissionsOf (claims : Json) : List String :=
  let listed := stringList claims "org_permissions"
  let listed :=
    if listed = [] then stringList claims "permissions"
    else listed
  if listed = [] then decodeV2Permissions claims else listed

/- A claim of the first layout, else one of `o`. -/
def claimOr (claims : Json) (key packed : String) : String :=
  let v1 := stringClaim claims key
  if v1 ≠ "" then
    v1
  else
    (claims.get "o").elim "" (stringClaim · packed)

/- What follows the last colon of `pla`. -/
def planOf (claims : Json) : String :=
  let planClaim := stringClaim claims "pla"
  if planClaim = "" then
    "free_org"
  else
    (((planClaim.toList.splitOn ':').getLast?).map
      String.ofList).getD "free_org"

def authUserFromClaims
    (claims : Json) : Except ClaimError AuthUser := do
  validateClaimTypes claims
  let userId := stringClaim claims "sub"
  let orgId := claimOr claims "org_id" "id"
  if userId = "" then
    throw .notAuthenticated
  if orgId = "" then
    throw .noOrganization
  pure
    { userId
      orgId
      orgRole := claimOr claims "org_role" "rol"
      orgPermissions := orgPermissionsOf claims
      email := stringClaim claims "email"
      username := stringClaim claims "username"
      plan := planOf claims
      features := splitScopedList (stringClaim claims "fea") }

/-
  All parts of the bitmap layout are there, and every bitmap
  is a 64-bit integer.
-/
structure Parts
    (claims : Json)
    (features permissions : List (List Char))
    (bitmaps : List Int) : Prop where
  parts :
    ∃ fea o per fpm,
      claims.get "fea" = some (.string fea) ∧ fea ≠ "" ∧
        claims.get "o" = some o ∧ o.asObject ≠ none ∧
        o.get "per" = some (.string per) ∧ per ≠ "" ∧
        o.get "fpm" = some (.string fpm) ∧
        features = featureNames fea ∧
        permissions = permissionNames per ∧
        (fpm.toList.splitOn ',').mapM parseI64 = some bitmaps

/-
  The bit `j` of the bitmap of the `i`-th feature, with the
  names at these positions.
-/
def Granted
    (claims : Json)
    (i j : Nat)
    (feature perm : List Char) : Prop :=
  ∃ features permissions bitmaps fpm,
    Parts claims features permissions bitmaps ∧
      features[i]? = some feature ∧
      permissions[j]? = some perm ∧
      bitmaps[i]? = some fpm ∧
      j < 63 ∧ fpm / 2 ^ j % 2 = 1

/- A low bit is that of the 64-bit remainder. -/
theorem bit_emod
    (n : Int)
    {j : Nat}
    (hLow : j < 64) :
    n % 2 ^ 64 / 2 ^ j % 2 = n / 2 ^ j % 2 := by
  have hPow : (2 : Int) ^ 64 = 2 ^ j * (2 * 2 ^ (63 - j)) := by
    rw [← pow_succ', ← pow_add]
    congr 1
    omega
  have hPos : (2 : Int) ^ j ≠ 0 := by positivity
  have hSplit :
      n =
        n % 2 ^ 64 +
          2 ^ j * (2 * (2 ^ (63 - j) * (n / 2 ^ 64))) := by
    calc n = n % 2 ^ 64 + 2 ^ 64 * (n / 2 ^ 64) :=
          (Int.emod_add_mul_ediv n (2 ^ 64)).symm
      _ = _ := by
          rw [hPow]
          ring
  have hQuotient :
      n / 2 ^ j =
        n % 2 ^ 64 / 2 ^ j +
          2 * (2 ^ (63 - j) * (n / 2 ^ 64)) := by
    conv_lhs => rw [hSplit]
    exact Int.add_mul_ediv_left _ _ hPos
  rw [hQuotient]
  omega

theorem getLsbD_ofInt
    (n : Int)
    {j : Nat}
    (hLow : j < 64) :
    (BitVec.ofInt 64 n).getLsbD j =
      decide (n / 2 ^ j % 2 = 1) := by
  have hPos : 0 ≤ n % 2 ^ 64 :=
    Int.emod_nonneg n (by positivity)
  have hCast :
      (((n % 2 ^ 64).toNat / 2 ^ j % 2 : Nat) : Int) =
        n / 2 ^ j % 2 := by
    rw [← bit_emod n hLow, Int.natCast_mod, Int.natCast_ediv,
      Int.toNat_of_nonneg hPos, Int.natCast_pow]
    rfl
  rw [← BitVec.testBit_toNat, BitVec.toNat_ofInt,
    Nat.testBit_eq_decide_div_mod_eq]
  apply decide_eq_decide.mpr
  rw [← hCast]
  exact Int.natCast_inj.symm

/- The mask finds the bit of the two's complement. -/
theorem hasBit_iff
    (fpm : Int)
    {j : Nat}
    (hLow : j < 63) :
    hasBit fpm j = true ↔ fpm / 2 ^ j % 2 = 1 := by
  have hBit := getLsbD_ofInt fpm (show j < 64 by omega)
  unfold hasBit
  rw [← BitVec.twoPow_eq, BitVec.and_twoPow,
    decide_eq_true_eq, hBit]
  have hMask : BitVec.twoPow 64 j ≠ 0#64 := by
    intro hZero
    have hLsb := congrArg (·.getLsbD j) hZero
    simp at hLsb
    omega
  by_cases hSet : fpm / 2 ^ j % 2 = 1
  · simp [hSet, hMask]
  · simp [hSet]

--------------------
-- Keys
--------------------

/- The parts around a separator that neither of them has. -/
theorem append_cons_inj
    {sep : Char}
    {left right first second : List Char}
    (hLeft : sep ∉ left)
    (hRight : sep ∉ right) :
    first ++ sep :: second = left ++ sep :: right ↔
      first = left ∧ second = right := by
  constructor
  · intro hSame
    induction left generalizing first with
    | nil =>
        cases first with
        | nil =>
            exact ⟨rfl, (List.cons.inj hSame).2⟩
        | cons c rest =>
            have hRest := (List.cons.inj hSame).2
            exact absurd (hRest ▸ by simp) hRight
    | cons d left ih =>
        cases first with
        | nil =>
            have hHead := (List.cons.inj hSame).1
            exact absurd (hHead ▸ List.mem_cons_self) hLeft
        | cons c rest =>
            obtain ⟨hHead, hRest⟩ := List.cons.inj hSame
            obtain ⟨hFirst, hSecond⟩ :=
              ih (List.not_mem_of_not_mem_cons hLeft) hRest
            exact ⟨by rw [hHead, hFirst], hSecond⟩
  · rintro ⟨rfl, rfl⟩
    rfl

/-
  Whatever the names are, the key of the admin permission is
  the key of just one feature and permission.
-/
theorem permissionKey_eq_iff (feature perm : List Char) :
    permissionKey feature perm = "org:cameras:manage_cameras" ↔
      feature = "cameras".toList ∧
        perm = "manage_cameras".toList := by
  have hKey :
      "org:cameras:manage_cameras" =
        String.ofList
          ("org:".toList ++
            ("cameras".toList ++ ':' :: "manage_cameras".toList)) := by
    decide
  unfold permissionKey
  rw [hKey, String.ofList_inj, List.append_assoc,
    List.append_cancel_left_eq]
  exact append_cons_inj (by decide) (by decide)

theorem mem_keysOf_iff
    (features permissions : List (List Char))
    (fpms : List Int)
    (key : String) :
    key ∈ keysOf features permissions fpms ↔
      ∃ (i j : Nat) (feature perm : List Char) (fpm : Int),
        features[i]? = some feature ∧
          permissions[j]? = some perm ∧
          fpms[i]? = some fpm ∧
          (j < 63 ∧ fpm / 2 ^ j % 2 = 1) ∧
          key = permissionKey feature perm := by
  unfold keysOf
  rw [List.mem_flatMap]
  constructor
  · rintro ⟨⟨feature, i⟩, hFeature, hKey⟩
    rw [List.mk_mem_zipIdx_iff_getElem?] at hFeature
    cases hFpm : fpms[i]? with
    | none =>
        simp [hFpm] at hKey
    | some fpm =>
        simp only [hFpm, List.mem_filterMap] at hKey
        obtain ⟨⟨perm, j⟩, hPerm, hKey⟩ := hKey
        rw [List.mk_mem_zipIdx_iff_getElem?] at hPerm
        dsimp only at hKey
        split at hKey
        · rename_i hBit
          rw [Bool.and_eq_true, decide_eq_true_eq] at hBit
          have hSet := (hasBit_iff fpm hBit.1).mp hBit.2
          exact
            ⟨i, j, feature, perm, fpm, hFeature, hPerm, hFpm,
              ⟨hBit.1, hSet⟩, (Option.some.inj hKey).symm⟩
        · cases hKey
  · rintro ⟨i, j, feature, perm, fpm, hFeature, hPerm, hFpm,
      ⟨hLow, hSet⟩, rfl⟩
    refine
      ⟨(feature, i), List.mk_mem_zipIdx_iff_getElem?.mpr hFeature,
        ?_⟩
    simp only [hFpm, List.mem_filterMap]
    refine
      ⟨(perm, j), List.mk_mem_zipIdx_iff_getElem?.mpr hPerm, ?_⟩
    simp [hLow, (hasBit_iff fpm hLow).mpr hSet]

--------------------
-- Decoding
--------------------

theorem get_of_stringClaim
    {claims : Json}
    {key : String}
    (hClaim : stringClaim claims key ≠ "") :
    claims.get key = some (.string (stringClaim claims key)) := by
  unfold stringClaim at hClaim ⊢
  cases hGet : claims.get key with
  | none =>
      simp [hGet] at hClaim
  | some value =>
      cases value <;> simp [hGet, Json.asStr] at hClaim ⊢

theorem stringClaim_of_get
    {claims : Json}
    {key text : String}
    (hGet : claims.get key = some (.string text)) :
    stringClaim claims key = text := by
  simp [stringClaim, hGet, Json.asStr]

theorem mapM_parseI64_empty :
    ("".toList.splitOn ',').mapM parseI64 = none := by
  decide

/- With all parts there the keys are those of the bitmaps. -/
theorem decode_of_parts
    {claims : Json}
    {features permissions : List (List Char)}
    {bitmaps : List Int}
    (hParts : Parts claims features permissions bitmaps) :
    decodeV2Permissions claims =
      keysOf features permissions bitmaps := by
  obtain ⟨fea, o, per, fpm, hFea, hFeaText, hO, hObject, hPer,
    hPerText, hFpm, rfl, rfl, hBitmaps⟩ := hParts.parts
  have hFpmText : fpm ≠ "" := by
    rintro rfl
    rw [mapM_parseI64_empty] at hBitmaps
    cases hBitmaps
  unfold decodeV2Permissions
  simp [hO, stringClaim_of_get hFea, stringClaim_of_get hPer,
    stringClaim_of_get hFpm, hFeaText, hObject, hPerText,
    fpmValues, hFpmText, hBitmaps]

/- Without them there is no bitmap, so no key. -/
theorem keysOf_nil
    (features permissions : List (List Char)) :
    keysOf features permissions [] = [] := by
  unfold keysOf
  rw [List.flatMap_eq_nil_iff]
  rintro ⟨feature, i⟩ _
  simp

theorem decode_of_no_parts
    {claims : Json}
    (hNone :
      ∀ features permissions bitmaps,
        ¬Parts claims features permissions bitmaps) :
    decodeV2Permissions claims = [] := by
  unfold decodeV2Permissions
  dsimp only
  cases hO : claims.get "o" with
  | none => rfl
  | some o =>
      dsimp only
      split
      · rfl
      · rename_i hPresent
        rw [not_or] at hPresent
        split
        · rfl
        · rename_i hPer
          unfold fpmValues
          split
          · exact keysOf_nil _ _
          · rename_i hFpm
            cases hBitmaps :
              ((stringClaim o "fpm").toList.splitOn ',').mapM
                parseI64 with
            | none =>
                exact keysOf_nil _ _
            | some bitmaps =>
                exact
                  absurd
                    ⟨⟨_, o, _, _,
                      get_of_stringClaim hPresent.1,
                      hPresent.1, hO, hPresent.2,
                      get_of_stringClaim hPer, hPer,
                      get_of_stringClaim hFpm, rfl, rfl,
                      hBitmaps⟩⟩
                    (hNone _ _ bitmaps)

theorem mem_decodeV2Permissions_iff
    (claims : Json)
    (key : String) :
    key ∈ decodeV2Permissions claims ↔
      ∃ i j feature perm,
        Granted claims i j feature perm ∧
          key = permissionKey feature perm := by
  constructor
  · intro hKey
    by_cases hParts :
      ∃ features permissions bitmaps,
        Parts claims features permissions bitmaps
    · obtain ⟨features, permissions, bitmaps, hParts⟩ := hParts
      rw [decode_of_parts hParts, mem_keysOf_iff] at hKey
      obtain ⟨i, j, feature, perm, fpm, hFeature, hPerm, hFpm,
        hBit, hKey⟩ := hKey
      exact
        ⟨i, j, feature, perm,
          ⟨features, permissions, bitmaps, fpm, hParts,
            hFeature, hPerm, hFpm, hBit⟩, hKey⟩
    · rw [decode_of_no_parts
        (fun features permissions bitmaps hAll =>
          hParts ⟨features, permissions, bitmaps, hAll⟩)] at hKey
      cases hKey
  · rintro ⟨i, j, feature, perm,
      ⟨features, permissions, bitmaps, fpm, hParts, hFeature,
        hPerm, hFpm, hBit⟩, hKey⟩
    rw [decode_of_parts hParts, mem_keysOf_iff]
    exact
      ⟨i, j, feature, perm, fpm, hFeature, hPerm, hFpm, hBit,
        hKey⟩

--------------------
-- Admins
--------------------

/- What a caller that is let in was built from. -/
theorem permissions_of_ok
    {claims : Json}
    {user : AuthUser}
    (hUser : authUserFromClaims claims = .ok user) :
    user.orgPermissions = orgPermissionsOf claims := by
  unfold authUserFromClaims at hUser
  cases hTypes : validateClaimTypes claims with
  | error refused =>
      rw [hTypes] at hUser
      cases hUser
  | ok checked =>
      rw [hTypes] at hUser
      dsimp only [bind, Except.bind] at hUser
      split at hUser
      · cases hUser
      · split at hUser
        · cases hUser
        · cases hUser
          rfl

/- With no list at the top level the bitmap's keys are left. -/
theorem orgPermissionsOf_eq_decode
    {claims : Json}
    (hListed : stringList claims "org_permissions" = [])
    (hAlias : stringList claims "permissions" = []) :
    orgPermissionsOf claims = decodeV2Permissions claims := by
  simp [orgPermissionsOf, hListed, hAlias]

theorem isAdmin_iff_of_role
    {user : AuthUser}
    (hRole :
      user.orgRole ≠ "admin" ∧ user.orgRole ≠ "org:admin") :
    user.isAdmin = true ↔
      "org:cameras:manage_cameras" ∈ user.orgPermissions := by
  unfold AuthUser.isAdmin AuthUser.hasPermission
  simp [hRole.1, hRole.2]

/- The admin key is granted by one bit of `cameras` only. -/
theorem adminKey_mem_decode_iff (claims : Json) :
    "org:cameras:manage_cameras" ∈ decodeV2Permissions claims ↔
      ∃ i j,
        Granted claims i j "cameras".toList
          "manage_cameras".toList := by
  rw [mem_decodeV2Permissions_iff]
  constructor
  · rintro ⟨i, j, feature, perm, hGranted, hKey⟩
    obtain ⟨rfl, rfl⟩ :=
      (permissionKey_eq_iff feature perm).mp hKey.symm
    exact ⟨i, j, hGranted⟩
  · rintro ⟨i, j, hGranted⟩
    exact
      ⟨i, j, _, _, hGranted,
        ((permissionKey_eq_iff _ _).mpr ⟨rfl, rfl⟩).symm⟩

/-
  The decoded keys are those of the bits that are set, and
  none of them with a part missing. A caller with no list of
  permissions and a lesser role is an admin by the one bit
  of `cameras` and `manage_cameras` only.
-/
theorem decodeV2Permissions_exact (claims : Json) :
    (∀ key,
      key ∈ decodeV2Permissions claims ↔
        ∃ i j feature perm,
          Granted claims i j feature perm ∧
            key = permissionKey feature perm) ∧
      ((∀ features permissions bitmaps,
          ¬Parts claims features permissions bitmaps) →
        decodeV2Permissions claims = []) ∧
      ∀ user,
        authUserFromClaims claims = .ok user →
          stringList claims "org_permissions" = [] →
          stringList claims "permissions" = [] →
          user.orgRole ≠ "admin" ∧
            user.orgRole ≠ "org:admin" →
          (user.isAdmin = true ↔
            ∃ i j,
              Granted claims i j "cameras".toList
                "manage_cameras".toList) := by
  refine
    ⟨mem_decodeV2Permissions_iff claims, decode_of_no_parts,
      ?_⟩
  intro user hUser hListed hAlias hRole
  rw [isAdmin_iff_of_role hRole, permissions_of_ok hUser,
    orgPermissionsOf_eq_decode hListed hAlias]
  exact adminKey_mem_decode_iff claims

/- A member whose second bit of `o:cameras` is set. -/
def memberClaims : Json :=
  .object
    [("sub", .string "user_1"),
      ("fea", .string "o:alerts,o:cameras"),
      ("o",
        .object
          [("id", .string "org_1"),
            ("rol", .string "member"),
            ("per", .string "view,manage_cameras"),
            ("fpm", .string "1,-2")])]

theorem decodeV2Permissions_exact_member :
    decodeV2Permissions memberClaims =
        ["org:alerts:view", "org:cameras:manage_cameras"] ∧
      (∃ i j,
        Granted memberClaims i j "cameras".toList
          "manage_cameras".toList) ∧
      decodeV2Permissions (.object []) = [] := by
  obtain ⟨user, hUser, hAdmin, hRole⟩ :
      ∃ user,
        authUserFromClaims memberClaims = .ok user ∧
          user.isAdmin = true ∧
          user.orgRole ≠ "admin" ∧
          user.orgRole ≠ "org:admin" :=
    ⟨_, rfl, by decide +kernel, by decide +kernel⟩
  refine
    ⟨by decide +kernel,
      ((decodeV2Permissions_exact memberClaims).2.2 user hUser
        (by decide) (by decide) hRole).mp hAdmin,
      (decodeV2Permissions_exact (.object [])).2.1 ?_⟩
  rintro features permissions bitmaps
    ⟨_, _, _, _, hFea, _⟩
  simp at hFea

end Claims

end SentinelCommand
