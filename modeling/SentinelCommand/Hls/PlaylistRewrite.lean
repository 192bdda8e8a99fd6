import Mathlib.Data.List.TakeWhile
import SentinelCommand.Lib.Regex

/-
  A pushed playlist on its way to the viewers: its segments
  become relative paths of the proxy, line by line.

  The decimal digits of Unicode are a parameter. Of the ASCII
  characters they are `0` to `9`.

  Key definitions include:
    * `Playlist.segmentUriRe`, `Playlist.segmentFilenameRe`
    * `Playlist.rewriteLine`, `Playlist.rewritePlaylist`

  Key theorems include:
    * `Playlist.captures_segmentUri_iff`
    * `Playlist.rewritePlaylist_exact`
-/

--------------------
-- The Patterns
--------------------

namespace SentinelCommand

namespace Playlist

open Regex

def newline : Char := Char.ofNat 10

section Patterns

variable (digit : Char → Bool)

/- `segment_\d+\.ts`. -/
def segmentName : Pattern :=
  .seq (.literal "segment_".toList)
    (.seq (.plus digit) (.literal ".ts".toList))

/- `^segment_\d+\.ts\n?$`. -/
def segmentFilenameRe : Pattern :=
  .seq (segmentName digit)
    (.optional (.literal [newline]))

/- `.`. -/
def dot (c : Char) : Bool :=
  c.toNat != 10

/- `[/\\]`. -/
def slash (c : Char) : Bool :=
  c == '/' || c.toNat == 92

/- `[ \t\r]`. -/
def trailing (c : Char) : Bool :=
  c == ' ' || c.toNat == 9 || c.toNat == 13

/- `^(?:.*[/\\])?(segment_\d+\.ts)[ \t\r]*$`. -/
def segmentUriRe : Pattern :=
  .seq (.optional (.seq (.many dot) (.one slash)))
    (.seq (.group (segmentName digit)) (.many trailing))

/- `^#EXT-X-CODECS:.*$`. -/
def codecsRe : Pattern :=
  .seq (.literal "#EXT-X-CODECS:".toList) (.many dot)

end Patterns

--------------------
-- The Rewriting
--------------------

section Rewriting

variable (digit : Char → Bool)

/- The first group always takes part in a match. -/
def rewriteLine (line : List Char) : List Char :=
  let uri :=
    if line.head? = some '#' then
      none
    else
      (captures (segmentUriRe digit) line).bind List.head?
  match uri with
  | some name => "segment/".toList ++ name
  | none => if isMatch codecsRe line then [] else line

def lines (text : List Char) : List (List Char) :=
  text.splitOn newline

def rewritePlaylist (raw : List Char) : List Char :=
  [newline].intercalate
    ((lines raw).map (rewriteLine digit))

end Rewriting

end Playlist

--------------------
-- Segment Names
--------------------

namespace Playlist

open Regex

/- What a line names: its last part, blanks left out. -/
def lastComponent (line : List Char) : List Char :=
  ((line.reverse.dropWhile trailing).takeWhile
    (fun c => !slash c)).reverse

section Names

variable {digit : Char → Bool}

def IsSegment (digit : Char → Bool) (name : List Char) : Prop :=
  ∃ digits, digits ≠ [] ∧ (∀ c ∈ digits, digit c = true) ∧
    name = "segment_".toList ++ (digits ++ ".ts".toList)

theorem matches_segmentName_iff
    {name : List Char}
    {caps : List (List Char)} :
    Matches (segmentName digit) name caps ↔
      IsSegment digit name ∧ caps = [] := by
  rw [segmentName, matches_seq_iff]
  constructor
  · rintro ⟨_, _, _, _, rfl, rfl, hStart, hRest⟩
    rcases matches_literal_iff.mp hStart with ⟨rfl, rfl⟩
    rcases matches_seq_iff.mp hRest with
      ⟨_, _, _, _, rfl, rfl, hDigits, hEnd⟩
    rcases matches_plus_iff.mp hDigits with
      ⟨hSome, hAll, rfl⟩
    rcases matches_literal_iff.mp hEnd with ⟨rfl, rfl⟩
    exact ⟨⟨_, hSome, hAll, rfl⟩, rfl⟩
  · rintro ⟨⟨digits, hSome, hAll, rfl⟩, rfl⟩
    have hDigits : Matches (.plus digit) digits [] :=
      matches_plus_iff.mpr ⟨hSome, hAll, rfl⟩
    have hRest :=
      Matches.seq hDigits (.literal ".ts".toList)
    exact ⟨_, _, [], [], rfl, rfl, .literal _, hRest⟩

/- The ASCII characters among the digits. -/
def AsciiDigits (digit : Char → Bool) : Prop :=
  ∀ c : Char, c.toNat < 128 → digit c = c.isDigit

/- No other ASCII character is in the name of a segment. -/
theorem not_mem_segment
    (hDigits : AsciiDigits digit)
    {name : List Char}
    (hName : IsSegment digit name)
    {c : Char}
    (hAscii : c.toNat < 128)
    (hDigit : c.isDigit = false)
    (hStart : c ∉ "segment_".toList)
    (hEnd : c ∉ ".ts".toList) :
    c ∉ name := by
  rcases hName with ⟨digits, _, hAll, rfl⟩
  rw [List.mem_append, List.mem_append]
  rintro (h | h | h)
  · exact hStart h
  · have hTrue := hAll c h
    rw [hDigits c hAscii, hDigit] at hTrue
    exact absurd hTrue nofun
  · exact hEnd h

theorem eq_of_slash
    {c : Char}
    (hSlash : slash c = true) :
    c = '/' ∨ c = Char.ofNat 92 := by
  rw [slash, Bool.or_eq_true, beq_iff_eq, beq_iff_eq] at hSlash
  rcases hSlash with h | h
  · exact Or.inl h
  · refine Or.inr ?_
    rw [← Char.ofNat_toNat c, h]

theorem slash_not_mem_segment
    (hDigits : AsciiDigits digit)
    {name : List Char}
    (hName : IsSegment digit name) :
    ∀ c ∈ name, slash c = false := by
  intro c hMem
  rw [← Bool.not_eq_true]
  intro hSlash
  rcases eq_of_slash hSlash with rfl | rfl
  · exact not_mem_segment hDigits hName (by decide)
      (by decide) (by simp) (by simp) hMem
  · exact not_mem_segment hDigits hName (by decide)
      (by decide) (by simp) (by simp) hMem

theorem newline_not_mem_segment
    (hDigits : AsciiDigits digit)
    {name : List Char}
    (hName : IsSegment digit name) :
    newline ∉ name :=
  not_mem_segment hDigits hName (by decide) (by decide)
    (by simp [newline]) (by simp [newline])

/- A segment's name does not end in a blank. -/
theorem reverse_segment
    {name : List Char}
    (hName : IsSegment digit name) :
    ∃ rest, name.reverse = 's' :: rest := by
  rcases hName with ⟨digits, _, _, rfl⟩
  refine ⟨"t.".toList ++
    (digits.reverse ++ "segment_".toList.reverse), ?_⟩
  rw [List.reverse_append, List.reverse_append]
  simp

/-
  The last component of a line, however its parts before and
  the blanks behind it are chosen.
-/
theorem lastComponent_eq
    (hDigits : AsciiDigits digit)
    {start name blanks : List Char}
    (hStart :
      start = [] ∨
        ∃ before c, start = before ++ [c] ∧ slash c = true)
    (hName : IsSegment digit name)
    (hBlanks : ∀ c ∈ blanks, trailing c = true) :
    lastComponent (start ++ (name ++ blanks)) = name := by
  have hPlain :
      ∀ c ∈ name.reverse, (!slash c) = true := by
    intro c hMem
    rw [List.mem_reverse] at hMem
    rw [slash_not_mem_segment hDigits hName c hMem]
    rfl
  have hBlanks' :
      ∀ c ∈ blanks.reverse, trailing c = true := by
    intro c hMem
    exact hBlanks c (List.mem_reverse.mp hMem)
  have hStop :
      start.reverse.takeWhile (fun c => !slash c) = [] := by
    rcases hStart with rfl | ⟨before, c, rfl, hSlash⟩
    · rfl
    · rw [List.reverse_append, List.reverse_singleton,
        List.singleton_append, List.takeWhile_cons_of_neg]
      rw [hSlash]
      exact Bool.false_ne_true
  have hEnd :
      (name.reverse ++ start.reverse).dropWhile trailing =
        name.reverse ++ start.reverse := by
    rcases reverse_segment hName with ⟨rest, hReverse⟩
    rw [hReverse, List.cons_append,
      List.dropWhile_cons_of_neg (by decide)]
  rw [lastComponent, List.reverse_append, List.reverse_append,
    List.append_assoc, List.dropWhile_append_of_pos hBlanks',
    hEnd, List.takeWhile_append_of_pos hPlain, hStop,
    List.append_nil, List.reverse_reverse]

/- A line around its last component. -/
theorem exists_around_lastComponent (line : List Char) :
    ∃ start blanks,
      line = start ++ (lastComponent line ++ blanks) ∧
        (start = [] ∨
          ∃ before c, start = before ++ [c] ∧
            slash c = true) ∧
        ∀ c ∈ blanks, trailing c = true := by
  refine ⟨((line.reverse.dropWhile trailing).dropWhile
      (fun c => !slash c)).reverse,
    (line.reverse.takeWhile trailing).reverse, ?_, ?_, ?_⟩
  · rw [lastComponent, ← List.append_assoc,
      ← List.reverse_append, List.takeWhile_append_dropWhile,
      ← List.reverse_append, List.takeWhile_append_dropWhile,
      List.reverse_reverse]
  · cases hDrop :
        (line.reverse.dropWhile trailing).dropWhile
          (fun c => !slash c) with
    | nil => exact Or.inl rfl
    | cons c rest =>
        refine Or.inr ⟨rest.reverse, c, List.reverse_cons, ?_⟩
        have hHead := List.head?_dropWhile_not
          (fun c => !slash c)
          (line.reverse.dropWhile trailing)
        rw [hDrop] at hHead
        simpa using hHead
  · intro c hMem
    rw [List.mem_reverse] at hMem
    exact List.mem_takeWhile_imp hMem

end Names

end Playlist

--------------------
-- One Line
--------------------

namespace Playlist

open Regex

section Line

variable {digit : Char → Bool}

theorem forall_dot
    {text : List Char}
    (hText : newline ∉ text) :
    ∀ c ∈ text, dot c = true := by
  intro c hMem
  rw [dot, bne_iff_ne]
  intro hCode
  have hNewline : c = newline := by
    rw [← Char.ofNat_toNat c, hCode]
    rfl
  rw [hNewline] at hMem
  exact hText hMem

theorem matches_segmentUri_iff
    (hDigits : AsciiDigits digit)
    {line : List Char}
    (hLine : newline ∉ line)
    {caps : List (List Char)} :
    Matches (segmentUriRe digit) line caps ↔
      IsSegment digit (lastComponent line) ∧
        caps = [lastComponent line] := by
  rw [segmentUriRe, matches_seq_iff]
  constructor
  · rintro ⟨start, _, mine, _, rfl, rfl, hStart, hRest⟩
    rcases matches_seq_iff.mp hRest with
      ⟨name, blanks, _, _, rfl, rfl, hGroup, hMany⟩
    rcases matches_group_iff.mp hGroup with ⟨_, rfl, hInner⟩
    rcases matches_segmentName_iff.mp hInner with
      ⟨hName, rfl⟩
    rcases matches_many_iff.mp hMany with ⟨hBlanks, rfl⟩
    have hBefore :
        (start = [] ∨
          ∃ before c, start = before ++ [c] ∧
            slash c = true) ∧ mine = [] := by
      rcases matches_optional_iff.mp hStart with
        ⟨rfl, rfl⟩ | hTaken
      · exact ⟨Or.inl rfl, rfl⟩
      · rcases matches_seq_iff.mp hTaken with
          ⟨before, _, _, _, rfl, rfl, hAny, hOne⟩
        rcases matches_many_iff.mp hAny with ⟨_, rfl⟩
        rcases matches_one_iff.mp hOne with
          ⟨c, rfl, hSlash, rfl⟩
        exact ⟨Or.inr ⟨before, c, rfl, hSlash⟩, rfl⟩
    rcases hBefore with ⟨hBefore, rfl⟩
    rw [lastComponent_eq hDigits hBefore hName hBlanks]
    exact ⟨hName, rfl⟩
  · rintro ⟨hName, rfl⟩
    rcases exists_around_lastComponent line with
      ⟨start, blanks, hAround, hStart, hBlanks⟩
    have hGroup :
        Matches (.group (segmentName digit))
          (lastComponent line) [lastComponent line] :=
      .group (matches_segmentName_iff.mpr ⟨hName, rfl⟩)
    refine ⟨start, lastComponent line ++ blanks, [],
      [lastComponent line], hAround, rfl, ?_,
      .seq hGroup (.many hBlanks)⟩
    rw [matches_optional_iff]
    rcases hStart with rfl | ⟨before, c, rfl, hSlash⟩
    · exact Or.inl ⟨rfl, rfl⟩
    · have hAny : newline ∉ before := by
        intro hMem
        rw [hAround] at hLine
        exact hLine (List.mem_append_left _
          (List.mem_append_left _ hMem))
      exact Or.inr
        (.seq (.many (forall_dot hAny)) (.one hSlash))

theorem captures_segmentUri
    (hDigits : AsciiDigits digit)
    {line : List Char}
    (hLine : newline ∉ line)
    (hName : IsSegment digit (lastComponent line)) :
    captures (segmentUriRe digit) line =
      some [lastComponent line] := by
  have hIff :=
    @matches_segmentUri_iff digit hDigits line hLine
  refine captures_eq_some_of_unique (hIff.mpr ⟨hName, rfl⟩) ?_
  intro other hOther
  exact (hIff.mp hOther).2

theorem captures_segmentUri_eq_none
    (hDigits : AsciiDigits digit)
    {line : List Char}
    (hLine : newline ∉ line)
    (hName : ¬IsSegment digit (lastComponent line)) :
    captures (segmentUriRe digit) line = none := by
  rw [captures_eq_none_iff]
  intro caps hMatch
  exact hName
    ((matches_segmentUri_iff hDigits hLine).mp hMatch).1

def IsCodecs (line : List Char) : Prop :=
  "#EXT-X-CODECS:".toList <+: line

theorem isMatch_codecs_iff
    {line : List Char}
    (hLine : newline ∉ line) :
    isMatch codecsRe line = true ↔ IsCodecs line := by
  rw [isMatch_iff, codecsRe]
  constructor
  · rintro ⟨caps, hMatch⟩
    rcases matches_seq_iff.mp hMatch with
      ⟨_, rest, _, _, rfl, rfl, hStart, _⟩
    rcases matches_literal_iff.mp hStart with ⟨rfl, _⟩
    exact List.prefix_append _ rest
  · rintro ⟨rest, rfl⟩
    have hRest : newline ∉ rest :=
      fun hMem => hLine (List.mem_append_right _ hMem)
    exact ⟨[],
      .seq (.literal _) (.many (forall_dot hRest))⟩

/- A line that is a URI of a segment. -/
def NamesSegment
    (digit : Char → Bool)
    (line : List Char) : Prop :=
  line.head? ≠ some '#' ∧ IsSegment digit (lastComponent line)

theorem rewriteLine_segment
    (hDigits : AsciiDigits digit)
    {line : List Char}
    (hLine : newline ∉ line)
    (hNames : NamesSegment digit line) :
    rewriteLine digit line =
      "segment/".toList ++ lastComponent line := by
  rw [rewriteLine, if_neg hNames.1,
    captures_segmentUri hDigits hLine hNames.2]
  rfl

theorem rewriteLine_other
    (hDigits : AsciiDigits digit)
    {line : List Char}
    (hLine : newline ∉ line)
    (hNames : ¬NamesSegment digit line) :
    rewriteLine digit line =
      if isMatch codecsRe line then [] else line := by
  rw [rewriteLine]
  by_cases hComment : line.head? = some '#'
  · rw [if_pos hComment]
  · have hName : ¬IsSegment digit (lastComponent line) :=
      fun hName => hNames ⟨hComment, hName⟩
    rw [if_neg hComment,
      captures_segmentUri_eq_none hDigits hLine hName]
    rfl

theorem not_namesSegment_of_codecs
    {line : List Char}
    (hCodecs : IsCodecs line) :
    ¬NamesSegment digit line := by
  rcases hCodecs with ⟨rest, rfl⟩
  exact fun hNames => hNames.1 rfl

theorem rewriteLine_codecs
    (hDigits : AsciiDigits digit)
    {line : List Char}
    (hLine : newline ∉ line)
    (hCodecs : IsCodecs line) :
    rewriteLine digit line = [] := by
  rw [rewriteLine_other hDigits hLine
      (not_namesSegment_of_codecs hCodecs),
    if_pos ((isMatch_codecs_iff hLine).mpr hCodecs)]

theorem rewriteLine_unchanged
    (hDigits : AsciiDigits digit)
    {line : List Char}
    (hLine : newline ∉ line)
    (hNames : ¬NamesSegment digit line)
    (hCodecs : ¬IsCodecs line) :
    rewriteLine digit line = line := by
  rw [rewriteLine_other hDigits hLine hNames,
    if_neg (fun h =>
      hCodecs ((isMatch_codecs_iff hLine).mp h))]

theorem lastComponent_rewritten
    (hDigits : AsciiDigits digit)
    {name : List Char}
    (hName : IsSegment digit name) :
    lastComponent ("segment/".toList ++ name) = name := by
  have hStart :
      "segment/".toList = [] ∨
        ∃ before c, "segment/".toList = before ++ [c] ∧
          slash c = true :=
    Or.inr ⟨"segment".toList, '/', by simp, by decide⟩
  have hLast :=
    lastComponent_eq hDigits hStart hName
      (List.forall_mem_nil (fun c => trailing c = true))
  rw [List.append_nil] at hLast
  exact hLast

theorem newline_not_mem_rewriteLine
    (hDigits : AsciiDigits digit)
    {line : List Char}
    (hLine : newline ∉ line) :
    newline ∉ rewriteLine digit line := by
  by_cases hNames : NamesSegment digit line
  · rw [rewriteLine_segment hDigits hLine hNames,
      List.mem_append]
    rintro (h | h)
    · simp [newline] at h
    · exact newline_not_mem_segment hDigits hNames.2 h
  · by_cases hCodecs : IsCodecs line
    · rw [rewriteLine_codecs hDigits hLine hCodecs]
      exact List.not_mem_nil
    · rw [rewriteLine_unchanged hDigits hLine hNames hCodecs]
      exact hLine

theorem not_namesSegment_nil : ¬NamesSegment digit [] := by
  rintro ⟨_, digits, hSome, _, hText⟩
  have hLength := congrArg List.length hText
  simp [lastComponent] at hLength

theorem rewriteLine_rewriteLine
    (hDigits : AsciiDigits digit)
    {line : List Char}
    (hLine : newline ∉ line) :
    rewriteLine digit (rewriteLine digit line) =
      rewriteLine digit line := by
  have hAgain := newline_not_mem_rewriteLine hDigits hLine
  by_cases hNames : NamesSegment digit line
  · rw [rewriteLine_segment hDigits hLine hNames] at hAgain ⊢
    have hLast := lastComponent_rewritten hDigits hNames.2
    have hNamed :
        NamesSegment digit
          ("segment/".toList ++ lastComponent line) := by
      refine ⟨?_, ?_⟩
      · simp
      · rw [hLast]
        exact hNames.2
    rw [rewriteLine_segment hDigits hAgain hNamed, hLast]
  · by_cases hCodecs : IsCodecs line
    · rw [rewriteLine_codecs hDigits hLine hCodecs]
      refine rewriteLine_unchanged hDigits List.not_mem_nil
        not_namesSegment_nil ?_
      simp [IsCodecs]
    · rw [rewriteLine_unchanged hDigits hLine hNames hCodecs,
        rewriteLine_unchanged hDigits hLine hNames hCodecs]

end Line

end Playlist

--------------------
-- The Whole Text
--------------------

namespace Playlist

open Regex

variable {digit : Char → Bool}

theorem newline_not_mem_lines (text : List Char) :
    ∀ line ∈ lines text, newline ∉ line := by
  induction text with
  | nil =>
      intro line hLine
      rw [lines, List.splitOn_nil, List.mem_singleton] at hLine
      rw [hLine]
      exact List.not_mem_nil
  | cons c rest ih =>
      intro line hLine
      rw [lines, List.splitOn_cons_eq_if_modifyHead] at hLine
      rw [lines] at ih
      split_ifs at hLine with hBreak
      · rcases List.mem_cons.mp hLine with rfl | hLater
        · exact List.not_mem_nil
        · exact ih line hLater
      · cases hSplit : rest.splitOn newline with
        | nil => exact absurd hSplit (List.splitOn_ne_nil _ _)
        | cons first others =>
            rw [hSplit] at hLine ih
            rw [List.modifyHead_cons, List.mem_cons] at hLine
            rcases hLine with rfl | hLater
            · rw [List.mem_cons]
              rintro (hSame | hMem)
              · rw [hSame, beq_self_eq_true] at hBreak
                exact hBreak rfl
              · exact ih first List.mem_cons_self hMem
            · exact ih line (List.mem_cons_of_mem _ hLater)

/- Every line stays where it is. -/
theorem lines_rewritePlaylist
    (hDigits : AsciiDigits digit)
    (raw : List Char) :
    lines (rewritePlaylist digit raw) =
      (lines raw).map (rewriteLine digit) := by
  rw [rewritePlaylist]
  refine List.splitOn_intercalate newline ?_ ?_
  · intro line hLine
    rcases List.mem_map.mp hLine with ⟨old, hOld, rfl⟩
    exact newline_not_mem_rewriteLine hDigits
      (newline_not_mem_lines raw old hOld)
  · rw [ne_eq, List.map_eq_nil_iff]
    exact List.splitOn_ne_nil _ _

theorem rewritePlaylist_rewritePlaylist
    (hDigits : AsciiDigits digit)
    (raw : List Char) :
    rewritePlaylist digit (rewritePlaylist digit raw) =
      rewritePlaylist digit raw := by
  have hAgain :
      ((lines raw).map (rewriteLine digit)).map
          (rewriteLine digit) =
        (lines raw).map (rewriteLine digit) := by
    rw [List.map_map]
    refine List.map_congr_left (fun line hLine => ?_)
    exact rewriteLine_rewriteLine hDigits
      (newline_not_mem_lines raw line hLine)
  calc
    rewritePlaylist digit (rewritePlaylist digit raw) =
        [newline].intercalate
          (((lines raw).map (rewriteLine digit)).map
            (rewriteLine digit)) := by
      rw [rewritePlaylist, lines_rewritePlaylist hDigits]
    _ = rewritePlaylist digit raw := by
      rw [hAgain, rewritePlaylist]

/- The route takes the name of every segment. -/
theorem isMatch_segmentFilename
    {name : List Char}
    (hName : IsSegment digit name) :
    isMatch (segmentFilenameRe digit) name = true := by
  rw [isMatch_iff, segmentFilenameRe]
  refine ⟨[], matches_seq_iff.mpr
    ⟨name, [], [], [], (List.append_nil name).symm, rfl, ?_,
      .skipped _⟩⟩
  exact matches_segmentName_iff.mpr ⟨hName, rfl⟩

/- No part of a path or of an address is in the name. -/
theorem plain_of_segment
    (hDigits : AsciiDigits digit)
    {name : List Char}
    (hName : IsSegment digit name) :
    '/' ∉ name ∧ Char.ofNat 92 ∉ name ∧ ':' ∉ name := by
  refine ⟨?_, ?_, ?_⟩
  · exact not_mem_segment hDigits hName (by decide)
      (by decide) (by simp) (by simp)
  · exact not_mem_segment hDigits hName (by decide)
      (by decide) (by simp) (by simp)
  · exact not_mem_segment hDigits hName (by decide)
      (by decide) (by simp) (by simp)

theorem rewritePlaylist_exact
    (hDigits : AsciiDigits digit)
    (raw : List Char) :
    rewritePlaylist digit (rewritePlaylist digit raw) =
        rewritePlaylist digit raw ∧
      lines (rewritePlaylist digit raw) =
        (lines raw).map (rewriteLine digit) ∧
      ∀ line ∈ lines raw,
        (NamesSegment digit line →
          rewriteLine digit line =
              "segment/".toList ++ lastComponent line ∧
            isMatch (segmentFilenameRe digit)
              (lastComponent line) = true ∧
            '/' ∉ lastComponent line ∧
            Char.ofNat 92 ∉ lastComponent line ∧
            ':' ∉ lastComponent line) ∧
          (IsCodecs line → rewriteLine digit line = []) ∧
          (¬NamesSegment digit line → ¬IsCodecs line →
            rewriteLine digit line = line) := by
  refine ⟨rewritePlaylist_rewritePlaylist hDigits raw,
    lines_rewritePlaylist hDigits raw, ?_⟩
  intro line hMem
  have hLine := newline_not_mem_lines raw line hMem
  refine ⟨?_, ?_, ?_⟩
  · intro hNames
    exact ⟨rewriteLine_segment hDigits hLine hNames,
      isMatch_segmentFilename hNames.2,
      plain_of_segment hDigits hNames.2⟩
  · exact rewriteLine_codecs hDigits hLine
  · exact rewriteLine_unchanged hDigits hLine

/- A path of another system, and a carriage return. -/
theorem rewritePlaylist_exact_path :
    rewriteLine Char.isDigit "/hls/segment_7.ts\r".toList =
      "segment/segment_7.ts".toList := by
  have hDigits : AsciiDigits Char.isDigit := fun _ _ => rfl
  have hLast :
      lastComponent "/hls/segment_7.ts\r".toList =
        "segment_7.ts".toList := by
    decide +kernel
  have hNames :
      NamesSegment Char.isDigit
        "/hls/segment_7.ts\r".toList := by
    refine ⟨by simp, ['7'], by simp, by simp, ?_⟩
    rw [hLast]
    simp
  have hMem :
      "/hls/segment_7.ts\r".toList ∈
        lines "/hls/segment_7.ts\r".toList := by
    decide +kernel
  rcases ((rewritePlaylist_exact hDigits _).2.2 _ hMem).1
    hNames with ⟨hRewritten, _⟩
  rw [hRewritten, hLast]
  simp

end Playlist

end SentinelCommand
