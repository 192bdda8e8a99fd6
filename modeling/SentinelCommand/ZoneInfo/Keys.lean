import Mathlib.Algebra.GroupWithZero.Nat
import SentinelCommand.Text

/-
  `zoneinfo.rs`: which time-zone names `valid_key` lets
  through, and which files under a root of `TZPATH` they name.

  A key is measured against `_/`, a stand-in for the root, so
  a key that climbs out of the root and back into `_` passes.

  Key definitions include:
    * `ZoneInfo.Root`, `ZoneInfo.parseTzpath`
    * `ZoneInfo.normpath`, `ZoneInfo.validKey`

  Correctness is proven by:
    * `ZoneInfo.validKey_shape`
    * `ZoneInfo.beneath_join_iff`
-/

--------------------
-- Roots
--------------------

namespace SentinelCommand

namespace ZoneInfo

/- `TZPATH` keeps absolute paths only. -/
structure Root where
  path : List Char
  absolute : path.head? = some '/'

def parseTzpath (raw : List Char) : List Root :=
  if raw = [] then
    []
  else
    (raw.splitOn ':').filterMap
      (fun p =>
        if h : p.head? = some '/' then some ⟨p, h⟩ else none)

/- `Path::join`: an absolute path replaces the root. -/
def join (root path : List Char) : List Char :=
  if path.head? = some '/' then
    path
  else if root = [] ∨ root.getLast? = some '/' then
    root ++ path
  else
    root ++ '/' :: path

open Text

def dot : List Char := ['.']

def dotDot : List Char := ['.', '.']

/- POSIX leaves the meaning of exactly two slashes open. -/
def initialSlashes (path : List Char) : Nat :=
  if "//".toList.isPrefixOf path ∧
      ¬"///".toList.isPrefixOf path then
    2
  else if "/".toList.isPrefixOf path then
    1
  else
    0

/- One component of the loop in `normpath`. -/
def push
    (initialSlashes : Nat)
    (comps : List (List Char))
    (comp : List Char) : List (List Char) :=
  if comp = [] ∨ comp = dot then
    comps
  else if comp ≠ dotDot ∨ (initialSlashes = 0 ∧ comps = []) ∨
      comps.getLast? = some dotDot then
    comps ++ [comp]
  else if comps ≠ [] then
    comps.dropLast
  else
    comps

/- `posixpath.normpath`. -/
def normpath (path : List Char) : List Char :=
  if path = [] then
    dot
  else
    let slashes := initialSlashes path
    let comps := (path.splitOn '/').foldl (push slashes) []
    let joined :=
      List.replicate slashes '/' ++ ['/'].intercalate comps
    if joined = [] then dot else joined

def validKey (key : List Char) : Bool :=
  if key.head? = some '/' then
    false
  else
    let norm := normpath key
    if utf8Len norm ≠ utf8Len key then
      false
    else
      "_/".toList.isPrefixOf (normpath ("_/".toList ++ norm))

/- What `load` may open, the first root first. -/
def openedPaths
    (tzpath : List Root)
    (key : List Char) : List (List Char) :=
  if validKey key then
    tzpath.map (fun root => join root.path key)
  else
    []

def resolveStep
    (dirs : List (List Char))
    (comp : List Char) : List (List Char) :=
  if comp = [] ∨ comp = dot then
    dirs
  else if comp = dotDot then
    dirs.dropLast
  else
    dirs ++ [comp]

/- The directories an absolute path goes down through. -/
def resolve (path : List Char) : List (List Char) :=
  (path.splitOn '/').foldl resolveStep []

/- Strictly beneath a directory. -/
def Beneath (root path : List Char) : Prop :=
  resolve root <+: resolve path ∧ resolve path ≠ resolve root

/- The key goes up once and then into `_`. -/
def Climbs (key : List Char) : Prop :=
  "../_/".toList <+: key

instance (root path : List Char) :
    Decidable (Beneath root path) := by
  unfold Beneath
  infer_instance

instance (key : List Char) : Decidable (Climbs key) := by
  unfold Climbs
  infer_instance

--------------------
-- Normalisation That Keeps a Key's Length
--------------------

/- The length of components with a slash after each. -/
def width (comps : List (List Char)) : Nat :=
  (comps.map (fun c => utf8Len c + 1)).sum

@[simp] theorem width_nil : width [] = 0 := rfl

@[simp] theorem width_cons
    (c : List Char)
    (comps : List (List Char)) :
    width (c :: comps) = utf8Len c + 1 + width comps := by
  simp [width]

@[simp] theorem width_append
    (xs ys : List (List Char)) :
    width (xs ++ ys) = width xs + width ys := by
  simp [width]

theorem utf8Len_intercalate
    {comps : List (List Char)}
    (hNe : comps ≠ []) :
    utf8Len (['/'].intercalate comps) + 1 = width comps := by
  induction comps with
  | nil => exact absurd rfl hNe
  | cons c rest ih =>
      cases rest with
      | nil => simp
      | cons d tail =>
          have hTail := ih (List.cons_ne_nil d tail)
          have hSlash : '/'.utf8Size = 1 := by decide
          rw [List.intercalate_cons_cons]
          simp only [utf8Len_append, utf8Len_cons, hSlash,
            width_cons] at hTail ⊢
          have hNil : utf8Len [] = 0 := rfl
          omega

/- A component is kept, or the path gets shorter. -/
theorem push_cases
    (n : Nat)
    (comps : List (List Char))
    (c : List Char) :
    (push n comps c = comps ++ [c] ∧ c ≠ [] ∧ c ≠ dot ∧
        (c ≠ dotDot ∨ comps = [] ∨
          comps.getLast? = some dotDot)) ∨
      width (push n comps c) < width (comps ++ [c]) := by
  unfold push
  by_cases hSkip : c = [] ∨ c = dot
  · right
    rw [if_pos hSkip]
    simp
  · rw [if_neg hSkip]
    have hSkip' := not_or.mp hSkip
    split
    · rename_i hKeep
      left
      refine ⟨rfl, hSkip'.1, hSkip'.2, ?_⟩
      rcases hKeep with h | h | h
      · exact Or.inl h
      · exact Or.inr (Or.inl h.2)
      · exact Or.inr (Or.inr h)
    · right
      split
      · rename_i hNe
        have hParts := List.dropLast_concat_getLast hNe
        have hWidth := congrArg width hParts
        rw [width_append] at hWidth ⊢
        simp only [width_cons, width_nil] at hWidth ⊢
        omega
      · simp

theorem width_foldl_push_le
    (n : Nat)
    (cs comps : List (List Char)) :
    width (cs.foldl (push n) comps) ≤ width comps + width cs := by
  induction cs generalizing comps with
  | nil => simp
  | cons c rest ih =>
      have hRest := ih (push n comps c)
      have hStep :
          width (push n comps c) ≤ width comps + (utf8Len c + 1) := by
        rcases push_cases n comps c with ⟨h, -⟩ | h
        · simp [h]
        · simp at h
          omega
      simp only [List.foldl_cons, width_cons]
      omega

/- The loop kept every component it was given. -/
def Kept (comps cs : List (List Char)) : Prop :=
  width (cs.foldl (push 0) comps) = width comps + width cs

theorem kept_cons
    {comps rest : List (List Char)}
    {c : List Char}
    (hKept : Kept comps (c :: rest)) :
    Kept (comps ++ [c]) rest ∧ c ≠ [] ∧ c ≠ dot ∧
      (c ≠ dotDot ∨ comps = [] ∨
        comps.getLast? = some dotDot) := by
  unfold Kept at hKept ⊢
  rw [List.foldl_cons] at hKept
  rcases push_cases 0 comps c with ⟨hPush, hShape⟩ | hLess
  · rw [hPush] at hKept
    refine ⟨?_, hShape⟩
    rw [hKept]
    simp
    omega
  · have hLe := width_foldl_push_le 0 rest (push 0 comps c)
    simp at hKept hLess
    omega

def Normal (c : List Char) : Prop :=
  c ≠ [] ∧ c ≠ dot ∧ c ≠ dotDot

/- After a normal component everything is normal. -/
theorem normal_of_kept
    {comps cs : List (List Char)}
    (hKept : Kept comps cs)
    (hNe : comps ≠ [])
    (hLast : comps.getLast? ≠ some dotDot) :
    ∀ c ∈ cs, Normal c := by
  induction cs generalizing comps with
  | nil => simp
  | cons c rest ih =>
      obtain ⟨hRest, hEmpty, hDot, hUp⟩ := kept_cons hKept
      have hNotUp : c ≠ dotDot := by
        rcases hUp with h | h | h
        · exact h
        · exact absurd h hNe
        · exact absurd h hLast
      intro d hD
      rcases List.mem_cons.mp hD with rfl | hTail
      · exact ⟨hEmpty, hDot, hNotUp⟩
      · refine ih hRest (by simp) ?_ d hTail
        simpa using hNotUp

/- What is kept goes up first and then down. -/
theorem shape_of_kept
    {comps cs : List (List Char)}
    (hKept : Kept comps cs)
    (hUp : comps = [] ∨ comps.getLast? = some dotDot) :
    ∃ k down, cs = List.replicate k dotDot ++ down ∧
      ∀ c ∈ down, Normal c := by
  induction cs generalizing comps with
  | nil => exact ⟨0, [], rfl, by simp⟩
  | cons c rest ih =>
      obtain ⟨hRest, hEmpty, hDot, -⟩ := kept_cons hKept
      by_cases hC : c = dotDot
      · obtain ⟨k, down, hEq, hNormal⟩ :=
          ih hRest (Or.inr (by simp [hC]))
        exact ⟨k + 1, down, by rw [hEq, hC]; rfl, hNormal⟩
      · refine ⟨0, c :: rest, rfl, ?_⟩
        intro d hD
        rcases List.mem_cons.mp hD with rfl | hTail
        · exact ⟨hEmpty, hDot, hC⟩
        · refine normal_of_kept hRest (by simp) ?_ d hTail
          simpa using hC

/- A key of one character is the path `.` or a name. -/
theorem kept_singleton
    {c : Char}
    (hRelative : c ≠ '/') :
    [c] = dot ∨ Kept [] ([c].splitOn '/') := by
  by_cases hDot : [c] = dot
  · exact Or.inl hDot
  · right
    have hNotMem : '/' ∉ [c] := by
      simpa using fun h : '/' = c => hRelative h.symm
    rw [List.splitOn_eq_singleton hNotMem]
    unfold Kept
    have hPush : push 0 [] [c] = [[c]] := by
      simp [push, hDot]
    simp [hPush]

/- A key that keeps its length keeps its components. -/
theorem kept_of_utf8Len
    {key : List Char}
    (hRelative : key.head? ≠ some '/')
    (hLen : utf8Len (normpath key) = utf8Len key) :
    key = dot ∨ Kept [] (key.splitOn '/') := by
  cases key with
  | nil => exact absurd hLen (by decide)
  | cons c rest =>
      have hC : c ≠ '/' := fun h => hRelative (by rw [h]; rfl)
      by_cases hRest : rest = []
      · rw [hRest]
        exact kept_singleton hC
      · right
        have hLong : 1 < utf8Len (c :: rest) := by
          have hPos := c.utf8Size_pos
          have hTail : utf8Len rest ≠ 0 :=
            fun h => hRest (eq_nil_of_utf8Len h)
          rw [utf8Len_cons]
          omega
        have hSlashes : initialSlashes (c :: rest) = 0 := by
          have hC' : ¬ '/' = c := fun h => hC h.symm
          simp [initialSlashes, hC']
        have hKey :
            utf8Len (c :: rest) + 1 =
              width ((c :: rest).splitOn '/') := by
          rw [← utf8Len_intercalate
              (List.splitOn_ne_nil '/' (c :: rest)),
            List.intercalate_splitOn]
        unfold normpath at hLen
        rw [if_neg (List.cons_ne_nil c rest), hSlashes] at hLen
        simp only [List.replicate_zero, List.nil_append] at hLen
        split at hLen
        · -- The path reads `.`, which is shorter than the key.
          have hDot : utf8Len dot = 1 := by decide
          omega
        · rename_i hJoined
          have hComps :
              ((c :: rest).splitOn '/').foldl (push 0) [] ≠ [] := by
            intro h
            rw [h] at hJoined
            exact hJoined List.intercalate_nil
          have hWidth := utf8Len_intercalate hComps
          unfold Kept
          rw [width_nil]
          omega

--------------------
-- The Shape of a Valid Key
--------------------

/- Normal components go down, in a path and in a key. -/
theorem foldl_push_normal
    (n : Nat)
    {down : List (List Char)}
    (hNormal : ∀ c ∈ down, Normal c)
    (comps : List (List Char)) :
    down.foldl (push n) comps = comps ++ down := by
  induction down generalizing comps with
  | nil => simp
  | cons c rest ih =>
      obtain ⟨hEmpty, hDot, hUp⟩ :=
        hNormal c List.mem_cons_self
      have hPush : push n comps c = comps ++ [c] := by
        simp [push, hEmpty, hDot, hUp]
      rw [List.foldl_cons, hPush,
        ih (fun d hD => hNormal d (List.mem_cons_of_mem c hD))]
      simp

theorem foldl_resolveStep_normal
    {down : List (List Char)}
    (hNormal : ∀ c ∈ down, Normal c)
    (dirs : List (List Char)) :
    down.foldl resolveStep dirs = dirs ++ down := by
  induction down generalizing dirs with
  | nil => simp
  | cons c rest ih =>
      obtain ⟨hEmpty, hDot, hUp⟩ :=
        hNormal c List.mem_cons_self
      have hStep : resolveStep dirs c = dirs ++ [c] := by
        simp [resolveStep, hEmpty, hDot, hUp]
      rw [List.foldl_cons, hStep,
        ih (fun d hD => hNormal d (List.mem_cons_of_mem c hD))]
      simp

/- Going up from nothing keeps going up. -/
theorem foldl_push_up
    (k : Nat)
    (comps : List (List Char))
    (hUp : comps = [] ∨ comps.getLast? = some dotDot) :
    (List.replicate k dotDot).foldl (push 0) comps =
      comps ++ List.replicate k dotDot := by
  induction k generalizing comps with
  | zero => simp
  | succ k ih =>
      have hPush : push 0 comps dotDot = comps ++ [dotDot] := by
        unfold push
        rw [if_neg (by decide), if_pos]
        rcases hUp with h | h
        · exact Or.inr (Or.inl ⟨rfl, h⟩)
        · exact Or.inr (Or.inr h)
      rw [List.replicate_succ, List.foldl_cons, hPush,
        ih _ (Or.inr (by simp))]
      simp

/- The path that stands for the key beneath its root. -/
theorem normpath_beneath
    {key : List Char}
    {comps : List (List Char)}
    (hComps :
      (key.splitOn '/').foldl (push 0) [['_']] = comps) :
    normpath ("_/".toList ++ key) =
      if ['/'].intercalate comps = [] then
        dot
      else
        ['/'].intercalate comps := by
  have hPath : "_/".toList ++ key = ['_'] ++ '/' :: key := rfl
  have hSlashes : initialSlashes ("_/".toList ++ key) = 0 := by
    simp [initialSlashes]
  have hPush : push 0 [] ['_'] = [['_']] := by decide
  unfold normpath
  rw [if_neg (by simp), hSlashes, hPath,
    List.splitOn_append_cons_self_of_not_mem (by decide)]
  simp only [List.foldl_cons, hPush, hComps, List.replicate_zero,
    List.nil_append]

/- A key of kept components is its own normal form. -/
theorem normpath_of_shape
    {key : List Char}
    {down : List (List Char)}
    {k : Nat}
    (hRelative : key.head? ≠ some '/')
    (hNil : key ≠ [])
    (hShape :
      key.splitOn '/' = List.replicate k dotDot ++ down)
    (hNormal : ∀ c ∈ down, Normal c) :
    normpath key = key := by
  have hSlashes : initialSlashes key = 0 := by
    cases key with
    | nil => rfl
    | cons c rest =>
        have hC : ¬ '/' = c := fun h => hRelative (by rw [← h]; rfl)
        simp [initialSlashes, hC]
  have hComps :
      (key.splitOn '/').foldl (push 0) [] = key.splitOn '/' := by
    rw [hShape, List.foldl_append,
      foldl_push_up k [] (Or.inl rfl),
      foldl_push_normal 0 hNormal]
    rfl
  unfold normpath
  rw [if_neg hNil, hSlashes]
  simp only [hComps, List.replicate_zero, List.nil_append,
    List.intercalate_splitOn]
  rw [if_neg hNil]

/- A path whose first component is `_` has another one. -/
theorem eq_cons_of_prefix
    {comps : List (List Char)}
    (hSlash : ∀ c ∈ comps, '/' ∉ c)
    (hNe : comps ≠ [])
    (hPrefix :
      "_/".toList <+: ['/'].intercalate comps) :
    ∃ down, down ≠ [] ∧ comps = ['_'] :: down := by
  obtain ⟨tail, hTail⟩ := hPrefix
  refine ⟨tail.splitOn '/', List.splitOn_ne_nil '/' tail, ?_⟩
  have hFree : '/' ∉ ['_'] := by decide
  rw [← List.splitOn_intercalate '/' hSlash hNe, ← hTail]
  exact List.splitOn_append_cons_self_of_not_mem hFree tail

/-
  A key that `valid_key` accepts goes down only, or goes up
  once and then into `_` and further down.
-/
theorem validKey_shape
    {key : List Char}
    (hValid : validKey key = true) :
    key.head? ≠ some '/' ∧
      ((∀ c ∈ key.splitOn '/', Normal c) ∨
        ∃ down, down ≠ [] ∧ (∀ c ∈ down, Normal c) ∧
          key.splitOn '/' = dotDot :: ['_'] :: down) := by
  unfold validKey at hValid
  split at hValid
  · cases hValid
  rename_i hRelative
  refine ⟨hRelative, ?_⟩
  simp only [ne_eq, ite_not] at hValid
  split at hValid
  · rename_i hLen
    rcases kept_of_utf8Len hRelative hLen with rfl | hKept
    · exact absurd hValid (by decide)
    · obtain ⟨k, down, hShape, hNormal⟩ :=
        shape_of_kept hKept (Or.inl rfl)
      have hNil : key ≠ [] := by
        intro h
        rw [h] at hLen
        exact absurd hLen (by decide)
      rw [normpath_of_shape hRelative hNil hShape hNormal,
        List.isPrefixOf_iff_prefix] at hValid
      have hSlash : ∀ c ∈ down, '/' ∉ c := by
        intro c hC
        have hPiece : c ∈ key.splitOn '/' := by
          rw [hShape]
          exact List.mem_append_right _ hC
        exact not_mem_of_mem_splitOn hPiece
      cases k with
      | zero =>
          left
          rw [hShape]
          exact hNormal
      | succ k =>
          right
          cases k with
          | zero =>
              have hComps :
                  (key.splitOn '/').foldl (push 0) [['_']] =
                    down := by
                rw [hShape]
                exact foldl_push_normal 0 hNormal []
              rw [normpath_beneath hComps] at hValid
              split at hValid
              · exact absurd hValid (by decide)
              · rename_i hJoined
                have hNe : down ≠ [] := by
                  intro h
                  rw [h] at hJoined
                  exact hJoined List.intercalate_nil
                obtain ⟨rest, hRest, rfl⟩ :=
                  eq_cons_of_prefix hSlash hNe hValid
                exact ⟨rest, hRest,
                  fun c hC =>
                    hNormal c (List.mem_cons_of_mem _ hC),
                  hShape⟩
          | succ k =>
              -- The stand-in's path starts with `..` here.
              exfalso
              have hComps :
                  (key.splitOn '/').foldl (push 0) [['_']] =
                    dotDot :: (List.replicate k dotDot ++ down) := by
                rw [hShape, List.foldl_append,
                  List.replicate_succ, List.foldl_cons]
                have hPop : push 0 [['_']] dotDot = [] := by
                  decide
                rw [hPop, foldl_push_up (k + 1) [] (Or.inl rfl),
                  foldl_push_normal 0 hNormal]
                rfl
              rw [normpath_beneath hComps] at hValid
              split at hValid
              · exact absurd hValid (by decide)
              · obtain ⟨rest, -, hRest⟩ :=
                  eq_cons_of_prefix
                    (by
                      intro c hC
                      rcases List.mem_cons.mp hC with rfl | hC
                      · decide
                      rcases List.mem_append.mp hC with hC | hC
                      · rw [List.eq_of_mem_replicate hC]
                        decide
                      · exact hSlash c hC)
                    (List.cons_ne_nil _ _) hValid
                exact absurd (List.cons.inj hRest).1 (by decide)
  · cases hValid

--------------------
-- Paths beneath a Root
--------------------

/- A joined path goes on from where the root ends. -/
theorem resolve_join
    (root : Root)
    {key : List Char}
    (hRelative : key.head? ≠ some '/') :
    resolve (join root.path key) =
      (key.splitOn '/').foldl resolveStep (resolve root.path) := by
  have hNe : root.path ≠ [] := by
    intro h
    have hAbsolute := root.absolute
    rw [h] at hAbsolute
    cases hAbsolute
  unfold join
  rw [if_neg hRelative]
  split
  · rename_i hEnd
    have hLast := hEnd.resolve_left hNe
    obtain ⟨front, hFront⟩ :=
      List.getLast?_eq_some_iff.mp hLast
    have hPath : front ++ ['/'] ++ key = front ++ '/' :: key := by
      simp
    unfold resolve
    rw [hFront, hPath, List.splitOn_append_cons_self,
      List.splitOn_append_cons_self, List.foldl_append,
      List.foldl_append, List.splitOn_nil]
    rfl
  · unfold resolve
    rw [List.splitOn_append_cons_self, List.foldl_append]

/- One directory up and into `_` again. -/
theorem prefix_dropLast_iff
    (dirs down : List (List Char)) :
    dirs <+: dirs.dropLast ++ ['_'] :: down ↔
      dirs = [] ∨ dirs.getLast? = some ['_'] := by
  constructor
  · intro hPrefix
    rcases List.eq_nil_or_concat dirs with h | ⟨front, c, h⟩
    · exact Or.inl h
    · right
      subst h
      simp only [List.concat_eq_append, List.dropLast_concat,
        List.prefix_append_right_inj] at hPrefix
      have hC : c = ['_'] := by
        simpa using hPrefix
      simp [hC]
  · rintro (rfl | hLast)
    · exact List.nil_prefix
    · obtain ⟨front, rfl⟩ := List.getLast?_eq_some_iff.mp hLast
      simp

/-
  The path opened for a valid key lies beneath the root
  unless the key climbs, the root is not the file system's,
  and its last directory is not called `_`.
-/
theorem beneath_join_iff
    (root : Root)
    (key : List Char)
    (hValid : validKey key = true) :
    Beneath root.path (join root.path key) ↔
      ¬Climbs key ∨ resolve root.path = [] ∨
        (resolve root.path).getLast? = some ['_'] := by
  obtain ⟨hRelative, hShape⟩ := validKey_shape hValid
  unfold Beneath
  rw [resolve_join root hRelative]
  rcases hShape with hNormal | ⟨down, hDown, hNormal, hSplit⟩
  · have hClimbs : ¬Climbs key := by
      rintro ⟨tail, rfl⟩
      have hFree : '/' ∉ dotDot := by decide
      have hSplit :
          ("../_/".toList ++ tail).splitOn '/' =
            dotDot :: ('_' :: '/' :: tail).splitOn '/' :=
        List.splitOn_append_cons_self_of_not_mem
          hFree ('_' :: '/' :: tail)
      have hFirst := hNormal dotDot (by rw [hSplit]; simp)
      exact hFirst.2.2 rfl
    rw [foldl_resolveStep_normal hNormal]
    refine ⟨fun _ => Or.inl hClimbs, fun _ => ⟨?_, ?_⟩⟩
    · exact List.prefix_append _ _
    · intro h
      exact List.splitOn_ne_nil '/' key
        (List.append_right_eq_self.mp h)
  · have hClimbs : Climbs key := by
      have hKey : ['/'].intercalate (key.splitOn '/') = key :=
        List.intercalate_splitOn '/'
      obtain ⟨c, rest, rfl⟩ := List.exists_cons_of_ne_nil hDown
      rw [hSplit] at hKey
      rw [← hKey]
      simp [Climbs, dotDot, List.intercalate_cons_cons]
    have hResolve :
        (key.splitOn '/').foldl resolveStep (resolve root.path) =
          (resolve root.path).dropLast ++ ['_'] :: down := by
      have hUp :
          resolveStep (resolve root.path) dotDot =
            (resolve root.path).dropLast := by
        simp [resolveStep, dotDot, dot]
      have hIn :
          resolveStep (resolve root.path).dropLast ['_'] =
            (resolve root.path).dropLast ++ [['_']] := by
        simp [resolveStep, dotDot, dot]
      rw [hSplit, List.foldl_cons, List.foldl_cons, hUp, hIn,
        foldl_resolveStep_normal hNormal]
      simp
    have hLonger :
        (resolve root.path).dropLast ++ ['_'] :: down ≠
          resolve root.path := by
      intro h
      have hLen := congrArg List.length h
      have hPos := List.length_pos_iff.mpr hDown
      simp at hLen
      omega
    rw [hResolve, prefix_dropLast_iff]
    constructor
    · exact fun h => Or.inr h.1
    · exact fun h => ⟨h.resolve_left (not_not_intro hClimbs), hLonger⟩

theorem beneath_join_iff_london :
    Beneath "/usr/share/zoneinfo".toList
      (join "/usr/share/zoneinfo".toList
        "Europe/London".toList) :=
  (beneath_join_iff ⟨"/usr/share/zoneinfo".toList, rfl⟩
    "Europe/London".toList (by decide)).mpr
      (Or.inl (by decide))

/- A valid key of an admin's that leaves the zone files. -/
theorem not_beneath_climbing :
    ∃ root key path,
      root ∈ parseTzpath "/usr/share/zoneinfo".toList ∧
        validKey key = true ∧
        path ∈ openedPaths
          (parseTzpath "/usr/share/zoneinfo".toList) key ∧
        path = join root.path key ∧
        ¬Beneath root.path path := by
  refine ⟨⟨"/usr/share/zoneinfo".toList, rfl⟩,
    "../_/x".toList,
    "/usr/share/zoneinfo/../_/x".toList, ?_, ?_, ?_, ?_, ?_⟩
  · exact List.mem_singleton.mpr rfl
  · decide
  · decide
  · decide
  · decide

end ZoneInfo

end SentinelCommand
