import Mathlib.Data.List.Basic
import Mathlib.Tactic.SplitIfs
/-!
# URL patterns

Patterns of fixed words and of the groups `([^/]+)` and `(.+)`, matched from the left with the
longest group first and anchored at the end.  On a path that is given by its segments a pattern
matches segment by segment: the greedy group takes all segments but those that follow it.
-/

namespace Hypernote.Foundation

/-- What follows a slash in a pattern. -/
inductive UrlPiece
  | word (s : List Char)
  /-- `([^/]+)`. -/
  | segment
  /-- `(.+)`. -/
  | path
  deriving DecidableEq

namespace UrlPattern

/-! ## The matcher -/

/-- A group of at most `k` characters, the longest that the rest of the pattern allows. -/
def longest (takes : Char → Bool) (rest : List Char → Option (List (List Char)))
    (cs : List Char) : Nat → Option (List (List Char))
  | 0 => none
  | k + 1 =>
      if (cs.take (k + 1)).all takes then
        match rest (cs.drop (k + 1)) with
        | some groups => some (cs.take (k + 1) :: groups)
        | none => longest takes rest cs k
      else longest takes rest cs k

/-- The groups of the match that a backtracking matcher finds first. -/
def matchUrl : List UrlPiece → List Char → Option (List (List Char))
  | [], cs => if cs = [] then some [] else none
  | .word s :: pieces, '/' :: cs =>
      if s <+: cs then matchUrl pieces (cs.drop s.length) else none
  | .segment :: pieces, '/' :: cs =>
      longest (fun c => c ≠ '/') (matchUrl pieces) cs cs.length
  | .path :: pieces, '/' :: cs => longest (fun c => c ≠ '\n') (matchUrl pieces) cs cs.length
  | _ :: _, _ => none

/-! ## Matches -/

/-- The groups of any match. -/
inductive Matches : List UrlPiece → List Char → List (List Char) → Prop
  | nil : Matches [] [] []
  | word (s : List Char) {pieces : List UrlPiece} {cs : List Char} {groups : List (List Char)}
      (h : Matches pieces cs groups) : Matches (.word s :: pieces) ('/' :: (s ++ cs)) groups
  | segment {g : List Char} (hne : g ≠ []) (hg : '/' ∉ g) {pieces : List UrlPiece}
      {cs : List Char} {groups : List (List Char)} (h : Matches pieces cs groups) :
      Matches (.segment :: pieces) ('/' :: (g ++ cs)) (g :: groups)
  | path {g : List Char} (hne : g ≠ []) (hg : '\n' ∉ g) {pieces : List UrlPiece}
      {cs : List Char} {groups : List (List Char)} (h : Matches pieces cs groups) :
      Matches (.path :: pieces) ('/' :: (g ++ cs)) (g :: groups)

theorem all_ne_iff {c : Char} {g : List Char} : g.all (fun d => d ≠ c) = true ↔ c ∉ g := by
  rw [List.all_eq_true]
  constructor
  · intro h hmem
    exact absurd rfl (of_decide_eq_true (h c hmem))
  · intro h d hd
    exact decide_eq_true fun heq => h (heq ▸ hd)

section

variable {takes : Char → Bool} {rest : List Char → Option (List (List Char))} {cs : List Char}

theorem longest_some {k : Nat} {groups : List (List Char)}
    (h : longest takes rest cs k = some groups) (hk : k ≤ cs.length) :
    ∃ g cs' groups', g ≠ [] ∧ g.all takes = true ∧ cs = g ++ cs' ∧ rest cs' = some groups' ∧
      groups = g :: groups' := by
  induction k with
  | zero => cases h
  | succ k ih =>
      have hlonger : longest takes rest cs k = some groups → _ := fun h =>
        ih h (Nat.le_of_succ_le hk)
      rw [longest] at h
      split at h
      · rename_i hall
        split at h
        · rename_i groups' hrest
          obtain rfl := Option.some.inj h
          refine ⟨_, _, _, ?_, hall, (List.take_append_drop (k + 1) cs).symm, hrest, rfl⟩
          intro hnil
          have hlength := congrArg List.length hnil
          rw [List.length_take, List.length_nil] at hlength
          omega
        · exact hlonger h
      · exact hlonger h

theorem longest_isSome {g cs' : List Char} (hne : g ≠ []) (hall : g.all takes = true)
    (hrest : (rest cs').isSome = true) {k : Nat} (hk : g.length ≤ k) :
    (longest takes rest (g ++ cs') k).isSome = true := by
  induction k with
  | zero => exact absurd (List.length_eq_zero_iff.mp (Nat.le_zero.mp hk)) hne
  | succ k ih =>
      rw [longest]
      rcases Nat.lt_or_eq_of_le hk with hlt | heq
      · have hlonger := ih (Nat.le_of_lt_succ hlt)
        split
        · split
          · rfl
          · exact hlonger
        · exact hlonger
      · rw [← heq, List.take_left, List.drop_left, if_pos hall]
        split
        · rfl
        · rename_i hnone
          rw [hnone] at hrest
          cases hrest

end

theorem matchUrl_cons_slash {piece : UrlPiece} {pieces : List UrlPiece} {cs : List Char}
    {groups : List (List Char)} (h : matchUrl (piece :: pieces) cs = some groups) :
    ∃ cs', cs = '/' :: cs' := by
  unfold matchUrl at h
  split at h
  · cases ‹_ = []›
  · exact ⟨_, rfl⟩
  · exact ⟨_, rfl⟩
  · exact ⟨_, rfl⟩
  · cases h

theorem matches_of_matchUrl {pieces : List UrlPiece} {cs : List Char} {groups : List (List Char)}
    (h : matchUrl pieces cs = some groups) : Matches pieces cs groups := by
  induction pieces generalizing cs groups with
  | nil =>
      rw [matchUrl] at h
      split_ifs at h with hcs
      cases h
      exact hcs ▸ .nil
  | cons piece pieces ih =>
      obtain ⟨cs, rfl⟩ := matchUrl_cons_slash h
      cases piece with
      | word s =>
          rw [matchUrl] at h
          split_ifs at h with hs
          obtain ⟨cs', rfl⟩ := hs
          rw [List.drop_left] at h
          exact .word s (ih h)
      | segment =>
          obtain ⟨g, cs', groups', hne, hall, rfl, hrest, rfl⟩ := longest_some h (Nat.le_refl _)
          exact .segment hne (all_ne_iff.mp hall) (ih hrest)
      | path =>
          obtain ⟨g, cs', groups', hne, hall, rfl, hrest, rfl⟩ := longest_some h (Nat.le_refl _)
          exact .path hne (all_ne_iff.mp hall) (ih hrest)

theorem matchUrl_isSome {pieces : List UrlPiece} {cs : List Char} {groups : List (List Char)}
    (h : Matches pieces cs groups) : (matchUrl pieces cs).isSome = true := by
  induction h with
  | nil => rfl
  | word s _ ih =>
      rw [matchUrl, if_pos (List.prefix_append s _), List.drop_left]
      exact ih
  | segment hne hg _ ih =>
      rw [matchUrl]
      exact longest_isSome hne (all_ne_iff.mpr hg) ih (by rw [List.length_append]; omega)
  | path hne hg _ ih =>
      rw [matchUrl]
      exact longest_isSome hne (all_ne_iff.mpr hg) ih (by rw [List.length_append]; omega)

/-! ## Paths by their segments -/

/-- The path with these segments. -/
def urlPath (segments : List (List Char)) : List Char := segments.flatMap fun s => '/' :: s

/-- The match segment by segment, of a pattern with at most one group `(.+)`. -/
def matchSegments : List UrlPiece → List (List Char) → Option (List (List Char))
  | [], [] => some []
  | .word s :: pieces, t :: segments => if t = s then matchSegments pieces segments else none
  | .segment :: pieces, t :: segments =>
      if t = [] then none else (matchSegments pieces segments).map fun groups => t :: groups
  | .path :: pieces, segments =>
      let count := segments.length - pieces.length
      let g := ['/'].intercalate (segments.take count)
      if g = [] ∨ '\n' ∈ g then none
      else (matchSegments pieces (segments.drop count)).map fun groups => g :: groups
  | _, _ => none

/-- No word has a slash, and no group goes over slashes. -/
def isPlain (pieces : List UrlPiece) : Bool :=
  pieces.all fun
    | .word s => '/' ∉ s
    | .segment => true
    | .path => false

/-- One group may go over slashes. -/
def isSimple : List UrlPiece → Bool
  | [] => true
  | .word s :: pieces => '/' ∉ s && isSimple pieces
  | .segment :: pieces => isSimple pieces
  | .path :: pieces => isPlain pieces

/-- No segment has a slash. -/
def Slashless (segments : List (List Char)) : Prop := ∀ s ∈ segments, '/' ∉ s

@[simp] theorem urlPath_nil : urlPath [] = [] := rfl

@[simp] theorem urlPath_cons (s : List Char) (segments : List (List Char)) :
    urlPath (s :: segments) = '/' :: (s ++ urlPath segments) := rfl

theorem urlPath_append (segments segments' : List (List Char)) :
    urlPath (segments ++ segments') = urlPath segments ++ urlPath segments' :=
  List.flatMap_append

theorem splitOn_append_urlPath {segments : List (List Char)} (h : Slashless segments)
    (s : List Char) : (s ++ urlPath segments).splitOn '/' = s.splitOn '/' ++ segments := by
  induction segments generalizing s with
  | nil => rw [urlPath_nil, List.append_nil, List.append_nil]
  | cons t segments ih =>
      have ht := List.splitOn_eq_singleton (h t List.mem_cons_self)
      have hrest := ih (fun u hu => h u (List.mem_cons_of_mem _ hu)) t
      rw [urlPath_cons, List.splitOn_append_cons_self, hrest, ht]
      rfl

theorem urlPath_injective {segments segments' : List (List Char)} (h : Slashless segments)
    (h' : Slashless segments') (heq : urlPath segments = urlPath segments') :
    segments = segments' := by
  have hsplit := congrArg (List.splitOn '/') (congrArg ([] ++ ·) heq)
  simp only [splitOn_append_urlPath h, splitOn_append_urlPath h'] at hsplit
  exact List.append_cancel_left hsplit

theorem urlPath_eq_intercalate {segments : List (List Char)} (h : segments ≠ []) :
    urlPath segments = '/' :: ['/'].intercalate segments := by
  induction segments with
  | nil => exact absurd rfl h
  | cons s segments ih =>
      cases segments with
      | nil => simp
      | cons t segments =>
          rw [urlPath_cons, ih (List.cons_ne_nil _ _), List.intercalate_cons_cons]
          simp

/-- Any text after a slash is a path with the segments between its slashes. -/
theorem urlPath_splitOn (s : List Char) : urlPath (s.splitOn '/') = '/' :: s := by
  rw [urlPath_eq_intercalate (List.splitOn_ne_nil _ _), List.intercalate_splitOn]

theorem slashless_splitOn (s : List Char) : Slashless (s.splitOn '/') := by
  induction s with
  | nil => simp [Slashless]
  | cons c s ih =>
      rw [List.splitOn_cons_eq_if_modifyHead]
      split_ifs with hc
      · exact List.forall_mem_cons.mpr ⟨List.not_mem_nil, ih⟩
      · have hne := List.splitOn_ne_nil '/' s
        generalize s.splitOn '/' = segments at ih hne
        cases segments with
        | nil => exact absurd rfl hne
        | cons t segments =>
            obtain ⟨ht, hrest⟩ := List.forall_mem_cons.mp ih
            refine List.forall_mem_cons.mpr ⟨?_, hrest⟩
            rw [List.mem_cons, not_or]
            exact ⟨fun heq => hc (heq ▸ beq_self_eq_true _), ht⟩

theorem matchSegments_nil_iff {segments groups : List (List Char)} :
    matchSegments [] segments = some groups ↔ segments = [] ∧ groups = [] := by
  cases segments <;> simp [matchSegments, eq_comm]

theorem matchSegments_word_iff {s : List Char} {pieces : List UrlPiece}
    {segments groups : List (List Char)} :
    matchSegments (.word s :: pieces) segments = some groups ↔
      ∃ rest, segments = s :: rest ∧ matchSegments pieces rest = some groups := by
  cases segments with
  | nil => simp [matchSegments]
  | cons t rest =>
      rw [matchSegments, Option.ite_none_right_eq_some]
      simp [and_assoc]

theorem matchSegments_segment_iff {pieces : List UrlPiece} {segments groups : List (List Char)} :
    matchSegments (.segment :: pieces) segments = some groups ↔
      ∃ s rest groups', segments = s :: rest ∧ s ≠ [] ∧ groups = s :: groups' ∧
        matchSegments pieces rest = some groups' := by
  cases segments with
  | nil => simp [matchSegments]
  | cons t rest =>
      rw [matchSegments, Option.ite_none_left_eq_some, Option.map_eq_some_iff]
      constructor
      · rintro ⟨hne, groups', hrest, rfl⟩
        exact ⟨t, rest, groups', rfl, hne, rfl, hrest⟩
      · rintro ⟨s, rest', groups', heq, hne, rfl, hrest⟩
        cases heq
        exact ⟨hne, groups', hrest, rfl⟩

theorem matchSegments_length {pieces : List UrlPiece} (hplain : isPlain pieces = true)
    {segments groups : List (List Char)} (h : matchSegments pieces segments = some groups) :
    segments.length = pieces.length := by
  induction pieces generalizing segments groups with
  | nil =>
      cases segments with
      | nil => rfl
      | cons _ _ => cases h
  | cons piece pieces ih =>
      rw [isPlain, List.all_cons, Bool.and_eq_true] at hplain
      obtain ⟨hpiece, hplain⟩ := hplain
      cases segments with
      | nil => cases piece <;> first | cases h | cases hpiece
      | cons t segments =>
          cases piece with
          | word s =>
              rw [matchSegments] at h
              split_ifs at h
              exact congrArg (· + 1) (ih hplain h)
          | segment =>
              rw [matchSegments] at h
              split_ifs at h
              obtain ⟨groups', h, -⟩ := Option.map_eq_some_iff.mp h
              exact congrArg (· + 1) (ih hplain h)
          | path => cases hpiece

theorem isSimple_of_isPlain {pieces : List UrlPiece} (h : isPlain pieces = true) :
    isSimple pieces = true := by
  induction pieces with
  | nil => rfl
  | cons piece pieces ih =>
      rw [isPlain, List.all_cons, Bool.and_eq_true] at h
      obtain ⟨hpiece, hplain⟩ := h
      cases piece with
      | word s => exact Bool.and_eq_true_iff.mpr ⟨hpiece, ih hplain⟩
      | segment => exact ih hplain
      | path => cases hpiece

/-- What is matched is nothing, or begins with a slash. -/
theorem Matches.exists_urlPath {pieces : List UrlPiece} {cs : List Char}
    {groups : List (List Char)} (h : Matches pieces cs groups) :
    ∃ segments, Slashless segments ∧ cs = urlPath segments := by
  have hslash (s : List Char) : ∃ segments, Slashless segments ∧ '/' :: s = urlPath segments :=
    ⟨s.splitOn '/', slashless_splitOn s, (urlPath_splitOn s).symm⟩
  cases h with
  | nil => exact ⟨[], List.forall_mem_nil _, rfl⟩
  | word => exact hslash _
  | segment => exact hslash _
  | path => exact hslash _

section

variable {pieces : List UrlPiece} {segments groups : List (List Char)}

/-- A match goes segment by segment. -/
theorem matchSegments_of_matches (hpieces : isSimple pieces = true) (hsegments : Slashless segments)
    (h : Matches pieces (urlPath segments) groups) :
    matchSegments pieces segments = some groups := by
  generalize hcs : urlPath segments = cs at h
  induction h generalizing segments with
  | nil =>
      cases segments with
      | nil => rfl
      | cons _ _ => cases hcs
  | @word s pieces cs groups h ih =>
      obtain ⟨hs, hpieces⟩ := Bool.and_eq_true_iff.mp hpieces
      obtain ⟨rest, hrest, rfl⟩ := h.exists_urlPath
      have hall : Slashless (s :: rest) := List.forall_mem_cons.mpr ⟨of_decide_eq_true hs, hrest⟩
      obtain rfl := urlPath_injective hsegments hall hcs
      rw [matchSegments, if_pos rfl]
      exact ih hpieces hrest rfl
  | @segment g hne hg pieces cs groups h ih =>
      obtain ⟨rest, hrest, rfl⟩ := h.exists_urlPath
      have hall : Slashless (g :: rest) := List.forall_mem_cons.mpr ⟨hg, hrest⟩
      obtain rfl := urlPath_injective hsegments hall hcs
      rw [matchSegments, if_neg hne, ih hpieces hrest rfl, Option.map_some]
  | @path g hne hg pieces cs groups h ih =>
      obtain ⟨rest, hrest, rfl⟩ := h.exists_urlPath
      have hall : Slashless (g.splitOn '/' ++ rest) :=
        List.forall_mem_append.mpr ⟨slashless_splitOn g, hrest⟩
      have hpath : urlPath segments = urlPath (g.splitOn '/' ++ rest) := by
        rw [hcs, urlPath_append, urlPath_splitOn]
        rfl
      obtain rfl := urlPath_injective hsegments hall hpath
      have htail := ih (isSimple_of_isPlain hpieces) hrest rfl
      have hcount : (g.splitOn '/' ++ rest).length - pieces.length = (g.splitOn '/').length := by
        rw [List.length_append, matchSegments_length hpieces htail, Nat.add_sub_cancel]
      rw [matchSegments, hcount, List.take_left, List.drop_left, List.intercalate_splitOn,
        if_neg (not_or.mpr ⟨hne, hg⟩), htail, Option.map_some]

theorem matches_of_matchSegments (hpieces : isSimple pieces = true)
    (hsegments : Slashless segments) (h : matchSegments pieces segments = some groups) :
    Matches pieces (urlPath segments) groups := by
  induction pieces generalizing segments groups with
  | nil =>
      cases segments with
      | nil =>
          cases h
          exact .nil
      | cons _ _ => cases h
  | cons piece pieces ih =>
      cases piece with
      | word s =>
          cases segments with
          | nil => cases h
          | cons t segments =>
              rw [matchSegments] at h
              split_ifs at h with ht
              subst ht
              exact .word t (ih (Bool.and_eq_true_iff.mp hpieces).2
                (fun s hs => hsegments s (List.mem_cons_of_mem _ hs)) h)
      | segment =>
          cases segments with
          | nil => cases h
          | cons t segments =>
              rw [matchSegments] at h
              split_ifs at h with ht
              obtain ⟨groups', hrest, rfl⟩ := Option.map_eq_some_iff.mp h
              exact .segment ht (hsegments t List.mem_cons_self)
                (ih hpieces (fun s hs => hsegments s (List.mem_cons_of_mem _ hs)) hrest)
      | path =>
          rw [matchSegments] at h
          split_ifs at h with hg
          obtain ⟨groups', hrest, rfl⟩ := Option.map_eq_some_iff.mp h
          obtain ⟨hne, hline⟩ := not_or.mp hg
          generalize segments.length - pieces.length = count at hrest hne hline
          have htaken : segments.take count ≠ [] := by
            intro hnil
            rw [hnil] at hne
            exact hne rfl
          have hpath : urlPath segments = '/' :: (['/'].intercalate (segments.take count) ++
              urlPath (segments.drop count)) := by
            rw [← List.cons_append, ← urlPath_eq_intercalate htaken, ← urlPath_append,
              List.take_append_drop]
          rw [hpath]
          exact .path hne hline (ih (isSimple_of_isPlain hpieces)
            (fun s hs => hsegments s (List.mem_of_mem_drop hs)) hrest)

/-- The pattern matches a path of segments just as it matches the segments. -/
theorem matchUrl_urlPath (hpieces : isSimple pieces = true) (hsegments : Slashless segments) :
    matchUrl pieces (urlPath segments) = matchSegments pieces segments := by
  refine Option.ext fun groups => ⟨fun h => ?_, fun h => ?_⟩
  · exact matchSegments_of_matches hpieces hsegments (matches_of_matchUrl h)
  · obtain ⟨groups', hmatch⟩ :=
      Option.isSome_iff_exists.mp (matchUrl_isSome (matches_of_matchSegments hpieces hsegments h))
    have hsame := matchSegments_of_matches hpieces hsegments (matches_of_matchUrl hmatch)
    rw [hmatch, ← hsame, h]

end

end UrlPattern

end Hypernote.Foundation
