import Hypernote.Proofs.NotebookPaths
import Hypernote.Routes
/-!
# The routing of requests

The patterns match character by character, with the longest notebook first.  On the paths that the
SDK puts together they take the segments apart as the routes do, so a request arrives at its own
handler unless an earlier pattern takes the cell id for its own last word.
-/

namespace Hypernote

open Foundation

/-! ## Characters of quoted texts -/

theorem quote_chars {s : Chars} {c : Char} (h : c ∈ Percent.quote s) : c ≠ '/' ∧ c ≠ '\n' := by
  obtain ⟨b, -, hc⟩ := List.mem_flatMap.mp h
  have hall : ((List.range 256).all fun n =>
      (Percent.quoteByte (UInt8.ofNat n)).all fun c => c != '/' && c != '\n') = true := by
    decide +kernel
  have hb := List.all_eq_true.mp hall b.toNat (List.mem_range.mpr b.toNat_lt)
  rw [UInt8.ofNat_toNat] at hb
  have hc := List.all_eq_true.mp hb c hc
  rw [Bool.and_eq_true, bne_iff_ne, bne_iff_ne] at hc
  exact hc

/-- A path that is put together of quoted texts. -/
def Quoted (segments : List Chars) : Prop := ∀ s ∈ segments, ∃ text, s = Percent.quote text

theorem Quoted.slashless {segments : List Chars} (h : Quoted segments) :
    UrlPattern.Slashless segments := by
  intro s hs hslash
  obtain ⟨text, rfl⟩ := h s hs
  exact (quote_chars hslash).1 rfl

theorem Quoted.lineless {segments : List Chars} (h : Quoted segments) :
    ∀ s ∈ segments, '\n' ∉ s := by
  intro s hs hline
  obtain ⟨text, rfl⟩ := h s hs
  exact (quote_chars hline).2 rfl

/-! ## Patterns and routes -/

def Piece.toUrlPiece : Piece → UrlPiece
  | .text s => .word s
  | .cellId => .segment

theorem count_cellId_text (s : Chars) (pieces : List Piece) :
    (Piece.text s :: pieces).count .cellId = pieces.count .cellId :=
  List.count_cons_of_ne (by simp)

theorem matchPieces_none {pieces : List Piece} (hcell : pieces.count .cellId = 0)
    {segments : List Chars} {cellId : Option Chars}
    (h : matchPieces pieces segments = some cellId) : cellId = none := by
  induction pieces generalizing segments with
  | nil =>
      cases segments with
      | nil => exact (Option.some.inj h).symm
      | cons _ _ => cases h
  | cons piece pieces ih =>
      cases piece with
      | text s =>
          rw [count_cellId_text] at hcell
          cases segments with
          | nil => cases h
          | cons segment segments =>
              rw [matchPieces] at h
              split_ifs at h
              exact ih hcell h
      | cellId => simp at hcell

theorem matchSegments_pieces {pieces : List Piece} (hcell : pieces.count .cellId ≤ 1)
    (segments : List Chars) :
    UrlPattern.matchSegments (pieces.map Piece.toUrlPiece) segments =
      (matchPieces pieces segments).map Option.toList := by
  induction pieces generalizing segments with
  | nil => cases segments <;> rfl
  | cons piece pieces ih =>
      cases segments with
      | nil => cases piece <;> rfl
      | cons segment segments =>
          cases piece with
          | text s =>
              rw [count_cellId_text] at hcell
              rw [List.map_cons, Piece.toUrlPiece, UrlPattern.matchSegments, matchPieces]
              split_ifs
              · exact ih hcell segments
              · rfl
          | cellId =>
              rw [List.count_cons_self] at hcell
              have hnone : pieces.count .cellId = 0 := by omega
              rw [List.map_cons, Piece.toUrlPiece, UrlPattern.matchSegments, matchPieces]
              split_ifs
              · rfl
              · rw [ih (by omega)]
                cases hrest : matchPieces pieces segments with
                | none => rfl
                | some cellId =>
                    rw [matchPieces_none hnone hrest]
                    rfl

theorem line_not_mem_intercalate {segments : List Chars} (h : ∀ s ∈ segments, '\n' ∉ s) :
    '\n' ∉ ['/'].intercalate segments := by
  cases segments with
  | nil => exact List.not_mem_nil
  | cons s segments =>
      intro hmem
      have hpath := List.mem_cons_of_mem '/' hmem
      rw [← UrlPattern.urlPath_eq_intercalate (List.cons_ne_nil _ _)] at hpath
      obtain ⟨t, ht, hline⟩ := List.mem_flatMap.mp hpath
      rcases List.mem_cons.mp hline with hslash | hline
      · cases hslash
      · exact h t ht hline

theorem matchSegments_notebook {pieces : List Piece} (hcell : pieces.count .cellId ≤ 1)
    {segments : List Chars} (hline : ∀ s ∈ segments, '\n' ∉ s) :
    UrlPattern.matchSegments (notebookPattern (pieces.map Piece.toUrlPiece))
        (notebooksRoot ++ segments) =
      (matchRoute pieces segments).map fun groups => groups.1 :: groups.2.toList := by
  have hgroup (count : Nat) : '\n' ∉ ['/'].intercalate (segments.take count) :=
    line_not_mem_intercalate fun s hs => hline s (List.mem_of_mem_take hs)
  rw [notebookPattern, apiPattern, notebooksRoot, List.cons_append, List.cons_append,
    List.cons_append, List.nil_append, UrlPattern.matchSegments, if_pos rfl,
    UrlPattern.matchSegments, if_pos rfl, UrlPattern.matchSegments, if_pos rfl,
    UrlPattern.matchSegments, matchRoute, List.length_map, matchSegments_pieces hcell]
  simp only [hgroup, or_false]
  split_ifs
  · rfl
  · rw [Option.map_map, Option.map_map]
    rfl

/-! ## The first pattern that matches -/

/-- The pattern of a route. -/
def routePattern (route : List Piece × Handler) : List UrlPiece × ApiHandler :=
  (notebookPattern (route.1.map Piece.toUrlPiece), .notebook route.2)

def ApiHandler.isNotebook : ApiHandler → Bool
  | .notebook _ => true
  | _ => false

theorem notebook_patterns :
    urlPatterns.filter (fun route => route.2.isNotebook) = routes.map routePattern := by
  decide

theorem isSimple_urlPatterns : ∀ route ∈ urlPatterns, UrlPattern.isSimple route.1 = true := by
  decide

theorem count_routes : ∀ route ∈ routes, route.1.count .cellId ≤ 1 := by
  decide

/-- What the first pattern captures of a path of segments. -/
def captured (segments : List Chars) (route : List UrlPiece × ApiHandler) :
    Option (ApiHandler × List Chars) :=
  (UrlPattern.matchSegments route.1 segments).map fun groups => (route.2, groups)

theorem findSome?_congr {α β : Type} {f g : α → Option β} {l : List α}
    (h : ∀ x ∈ l, f x = g x) : l.findSome? f = l.findSome? g := by
  induction l with
  | nil => rfl
  | cons x l ih =>
      rw [List.findSome?_cons, List.findSome?_cons, h x List.mem_cons_self,
        ih fun y hy => h y (List.mem_cons_of_mem _ hy)]

theorem findSome?_filter {α β : Type} {f : α → Option β} {p : α → Bool} {l : List α}
    (h : ∀ x ∈ l, p x = false → f x = none) : (l.filter p).findSome? f = l.findSome? f := by
  induction l with
  | nil => rfl
  | cons x l ih =>
      have hrest := ih fun y hy => h y (List.mem_cons_of_mem _ hy)
      rw [List.filter_cons, List.findSome?_cons]
      split_ifs with hp
      · rw [List.findSome?_cons, hrest]
      · rw [h x List.mem_cons_self (Bool.eq_false_of_not_eq_true hp), hrest]

theorem firstMatch_urlPath {segments : List Chars} (h : UrlPattern.Slashless segments) :
    firstMatch (UrlPattern.urlPath segments) = urlPatterns.findSome? (captured segments) := by
  rw [firstMatch]
  apply findSome?_congr
  intro route hroute
  rw [captured, UrlPattern.matchUrl_urlPath (isSimple_urlPatterns route hroute) h]

/-- The handler and the groups of a route, as its pattern gives them. -/
def ofRoute (found : Handler × Chars × Option Chars) : ApiHandler × List Chars :=
  (.notebook found.1, found.2.1 :: found.2.2.toList)

theorem dispatch_notebooks (segments : List Chars) :
    dispatch (notebooksRoot ++ segments) = routes.findSome? fun route =>
      (matchRoute route.1 segments).map fun groups => (route.2, groups) := by
  rw [notebooksRoot, List.cons_append, List.cons_append, List.cons_append, List.nil_append,
    dispatch]
  exact if_pos rfl

theorem quoted_notebooksRoot : Quoted notebooksRoot := by
  unfold Quoted notebooksRoot
  simp only [List.forall_mem_cons, List.not_mem_nil, false_imp_iff, forall_const, and_true]
  exact ⟨quoted_word (by decide), quoted_word (by decide), quoted_word (by decide)⟩

/-- A pattern of another part of the API does not match. -/
theorem captured_others (segments : List Chars) {route : List UrlPiece × ApiHandler}
    (hroute : route ∈ urlPatterns) (hother : route.2.isNotebook = false) :
    captured (notebooksRoot ++ segments) route = none := by
  have hword : ∀ route ∈ urlPatterns, route.2.isNotebook = false →
      ∃ s pieces, route.1 = apiPattern (.word s :: pieces) ∧ s ≠ "notebooks".toList := by
    intro route hroute hother
    simp only [urlPatterns, List.mem_cons, List.not_mem_nil, or_false] at hroute
    rcases hroute with rfl | rfl | rfl | rfl | rfl | rfl | rfl | rfl | rfl | rfl | rfl | rfl |
      rfl | rfl | rfl <;>
      first
        | exact ⟨_, _, rfl, by decide⟩
        | cases hother
  obtain ⟨s, pieces, hpattern, hs⟩ := hword route hroute hother
  rw [captured, hpattern, apiPattern, notebooksRoot, List.cons_append, List.cons_append,
    List.cons_append, UrlPattern.matchSegments, if_pos rfl, UrlPattern.matchSegments, if_pos rfl,
    UrlPattern.matchSegments, if_neg fun h => hs h.symm, Option.map_none]

/-- On the path of a notebook the patterns match as the routes do. -/
theorem firstMatch_notebooks {segments : List Chars} (h : Quoted segments) :
    firstMatch (UrlPattern.urlPath (notebooksRoot ++ segments)) =
      (dispatch (notebooksRoot ++ segments)).map ofRoute := by
  have hall : Quoted (notebooksRoot ++ segments) :=
    List.forall_mem_append.mpr ⟨quoted_notebooksRoot, h⟩
  have hcaptured : ∀ route ∈ routes,
      (captured (notebooksRoot ++ segments) ∘ routePattern) route =
        ((matchRoute route.1 segments).map fun groups => (route.2, groups)).map ofRoute := by
    intro route hroute
    rw [Function.comp_apply, captured, routePattern,
      matchSegments_notebook (count_routes route hroute) h.lineless, Option.map_map, Option.map_map]
    rfl
  rw [firstMatch_urlPath hall.slashless,
    ← findSome?_filter (fun route hroute => captured_others segments hroute), notebook_patterns,
    List.findSome?_map, findSome?_congr hcaptured, dispatch_notebooks, List.map_findSome?]
  rfl

/-- No other path is taken for one of a notebook. -/
theorem root_of_firstMatch {segments : List Chars} (h : Quoted segments) {handler : Handler}
    {groups : List Chars}
    (hmatch : firstMatch (UrlPattern.urlPath segments) = some (.notebook handler, groups)) :
    ∃ rest, segments = notebooksRoot ++ rest := by
  rw [firstMatch_urlPath h.slashless] at hmatch
  obtain ⟨route, hroute, hcaptured⟩ := List.exists_of_findSome?_eq_some hmatch
  obtain ⟨groups', hgroups, heq⟩ := Option.map_eq_some_iff.mp hcaptured
  have hfilter : route ∈ urlPatterns.filter fun route => route.2.isNotebook :=
    List.mem_filter.mpr ⟨hroute, by rw [(Prod.mk.inj heq).1]; rfl⟩
  rw [notebook_patterns] at hfilter
  obtain ⟨route', -, rfl⟩ := List.mem_map.mp hfilter
  rw [routePattern, notebookPattern, apiPattern] at hgroups
  match segments with
  | [] => cases hgroups
  | [_] =>
      rw [UrlPattern.matchSegments] at hgroups
      split_ifs at hgroups
      cases hgroups
  | [_, _] =>
      rw [UrlPattern.matchSegments] at hgroups
      split_ifs at hgroups
      rw [UrlPattern.matchSegments] at hgroups
      split_ifs at hgroups
      cases hgroups
  | _ :: _ :: _ :: rest =>
      rw [UrlPattern.matchSegments] at hgroups
      split_ifs at hgroups with hhypernote
      rw [UrlPattern.matchSegments] at hgroups
      split_ifs at hgroups with hapi
      rw [UrlPattern.matchSegments] at hgroups
      split_ifs at hgroups with hnotebooks
      exact ⟨rest, by rw [hhypernote, hapi, hnotebooks]; rfl⟩

/-- The pattern of a handler is the first exactly if its route is. -/
theorem firstMatch_eq_iff {segments : List Chars} (h : Quoted segments) {handler : Handler}
    {notebookId : Chars} {cellId : Option Chars} :
    firstMatch (UrlPattern.urlPath segments) =
        some (.notebook handler, notebookId :: cellId.toList) ↔
      dispatch segments = some (handler, notebookId, cellId) := by
  have htoList {a b : Option Chars} (heq : a.toList = b.toList) : a = b := by
    cases a <;> cases b <;> simp_all
  constructor
  · intro hmatch
    obtain ⟨rest, rfl⟩ := root_of_firstMatch h hmatch
    rw [firstMatch_notebooks fun s hs => h s (List.mem_append_right _ hs)] at hmatch
    obtain ⟨⟨handler', notebookId', cellId'⟩, hdispatch, heq⟩ := Option.map_eq_some_iff.mp hmatch
    simp only [ofRoute, Prod.mk.injEq, ApiHandler.notebook.injEq, List.cons.injEq] at heq
    obtain ⟨rfl, rfl, hcell⟩ := heq
    rw [hdispatch, htoList hcell]
  · intro hdispatch
    obtain ⟨rest, rfl, -⟩ := dispatch_some hdispatch
    rw [firstMatch_notebooks fun s hs => h s (List.mem_append_right _ hs), hdispatch]
    rfl

/-! ## The requests of the SDK -/

/-- A non-empty text of letters, digits, `-` and `_`, as the ids of cells and jobs are. -/
def IsId (s : Chars) : Prop :=
  s ≠ [] ∧ ∀ c ∈ s, c.isAlphanum = true ∨ c = '-' ∨ c = '_'

theorem isId_of_all {s : Chars} (hs : s ≠ [])
    (h : (s.all fun c => c.isAlphanum || c == '-' || c == '_') = true) : IsId s := by
  refine ⟨hs, fun c hc => ?_⟩
  have hc := List.all_eq_true.mp h c hc
  rw [Bool.or_eq_true, Bool.or_eq_true, beq_iff_eq, beq_iff_eq, or_assoc] at hc
  exact hc

namespace ApiRequest

/-- The handler that is meant. -/
def handler : ApiRequest → ApiHandler
  | .notebook request => .notebook request.handler
  | .diagnostics => .serverDiagnostics
  | .listJobs => .jobs
  | .job _ => .job
  | .stdin _ => .sendStdin

/-- The quoted notebook path and the quoted cell id, or the job id. -/
def groups (path : Chars) : ApiRequest → List Chars
  | .notebook request =>
      Percent.quote path :: (request.cellId?.map Percent.quote).toList
  | .diagnostics => []
  | .listJobs => []
  | .job jobId => [jobId]
  | .stdin jobId => [jobId]

/-- The cell id or the job id that the request is about. -/
def id? : ApiRequest → Option Chars
  | .notebook request => request.cellId?
  | .job jobId | .stdin jobId => some jobId
  | .diagnostics | .listJobs => none

/-- An earlier pattern takes the cell id for its own last word. -/
def Shadowed : ApiRequest → Prop
  | .notebook request =>
      request.cellId? = some "cells".toList ∨ request = .cell "document".toList
  | _ => False

/-- The notebook path is left out, as a dot segment is. -/
def LosesPath (path : Chars) : ApiRequest → Prop
  | .notebook _ => isDot path = true
  | _ => False

/-- The first pattern that matches the path of these segments is the one of the request, with the
quoted texts of the request as its groups. -/
def Routed (path : Chars) (request : ApiRequest) (segments : List Chars) : Prop :=
  firstMatch (UrlPattern.urlPath segments) = some (request.handler, request.groups path)

end ApiRequest

theorem quoteByte_id {c : Char} (h : c.isAlphanum = true ∨ c = '-' ∨ c = '_') :
    (String.utf8EncodeChar c).flatMap Percent.quoteByte = [c] := by
  have hall : ∀ n < 128, (Char.ofNat n).isAlphanum = true ∨ Char.ofNat n = '-' ∨
      Char.ofNat n = '_' → Percent.quoteByte (UInt8.ofNat n) = [Char.ofNat n] := by
    decide
  have hlt : c.toNat < 128 := by
    rcases h with h | rfl | rfl
    · have h : (decide (c.val ≥ 'A'.val ∧ c.val ≤ 'Z'.val) ||
          (c.val ≥ 'a'.val && c.val ≤ 'z'.val) || (c.val ≥ '0'.val && c.val ≤ '9'.val)) = true := h
      simp only [Bool.or_eq_true, Bool.and_eq_true, decide_eq_true_eq, ge_iff_le,
        UInt32.le_iff_toNat_le] at h
      have hz : ('Z' : Char).val.toNat = 90 ∧ ('z' : Char).val.toNat = 122 ∧
          ('9' : Char).val.toNat = 57 := by decide
      have hval : c.toNat = c.val.toNat := rfl
      omega
    · decide
    · decide
  have hc := hall c.toNat hlt
  rw [Char.ofNat_toNat] at hc
  rw [utf8EncodeChar_ascii hlt, List.flatMap_cons, List.flatMap_nil, List.append_nil]
  exact hc h

theorem quote_id {s : Chars} (h : IsId s) : Percent.quote s = s := by
  obtain ⟨-, hchars⟩ := h
  induction s with
  | nil => rfl
  | cons c s ih =>
      obtain ⟨hc, hs⟩ := List.forall_mem_cons.mp hchars
      rw [Percent.quote, utf8Encode, List.flatMap_cons, List.flatMap_append, quoteByte_id hc]
      exact congrArg (c :: ·) (ih hs)

theorem isDot_id {s : Chars} (h : IsId s) : isDot s = false := by
  rw [← Bool.not_eq_true]
  intro hdot
  have hmem : '.' ∈ s := by
    simp only [isDot, Bool.or_eq_true, decide_eq_true_eq] at hdot
    rcases hdot with rfl | rfl <;> exact List.mem_cons_self
  have hchar := h.2 '.' hmem
  revert hchar
  decide

theorem mem_removeDotSegments {segments : List Chars} {s : Chars}
    (h : s ∈ removeDotSegments segments) : s ∈ segments := by
  have hrun : ∀ (rest out : List Chars), s ∈ rest.foldl putSegment out → s ∈ out ∨ s ∈ rest := by
    intro rest
    induction rest with
    | nil => exact fun out hs => .inl hs
    | cons segment rest ih =>
        intro out hs
        rcases ih (putSegment out segment) hs with hout | hrest
        · unfold putSegment at hout
          split_ifs at hout
          · exact .inl hout
          · exact .inl (List.dropLast_subset _ hout)
          · rcases List.mem_append.mp hout with hout | hlast
            · exact .inl hout
            · exact .inr (List.mem_singleton.mp hlast ▸ List.mem_cons_self)
        · exact .inr (List.mem_cons_of_mem _ hrest)
  rcases hrun segments [] h with hnil | hmem
  · cases hnil
  · exact hmem

section

variable {web : Web} {path : Chars}

/-- The requests about a notebook. -/
theorem notebook_routed_iff (hpath : path ≠ []) {request : NotebookRequest}
    (hid : ∀ cellId, request.cellId? = some cellId → IsId cellId) :
    (ApiRequest.notebook request).Routed path (requestPath path request) ↔
      ¬ (ApiRequest.notebook request).Shadowed := by
  rw [ApiRequest.Routed, ApiRequest.handler, ApiRequest.groups,
    firstMatch_eq_iff (quoted_requestPath path request)]
  constructor
  · rintro hdispatch (hcells | rfl)
    · exact dispatch_shadowed _ hcells (.inl rfl) _ hdispatch
    · exact dispatch_shadowed _ rfl (.inr ⟨rfl, rfl⟩) _ hdispatch
  · intro hshadowed
    apply dispatch_request
    · exact fun hnil => hpath (quote_eq_nil_iff.mp hnil)
    · intro cellId hcell
      refine ⟨(hid cellId hcell).1, ?_, ?_⟩
      · rintro rfl
        exact hshadowed (.inl hcell)
      · rintro rfl rfl
        exact hshadowed (.inr rfl)

theorem notebook_sent_routed_iff (hweb : web.Lawful) (hpath : path ≠ [])
    {request : NotebookRequest} (hid : ∀ cellId, request.cellId? = some cellId → IsId cellId) :
    (ApiRequest.notebook request).Routed path (web.sentPath (requestPath path request)) ↔
      ¬ (ApiRequest.notebook request).Shadowed ∧
        ¬ (ApiRequest.notebook request).LosesPath path := by
  have hsent : Quoted (web.sentPath (requestPath path request)) := by
    intro s hs
    rw [hweb.sentPath_eq _ (quoted_requestPath path request)] at hs
    exact quoted_requestPath path request s (mem_removeDotSegments hs)
  constructor
  · intro hrouted
    have hdispatch := (firstMatch_eq_iff hsent).mp hrouted
    have hdotless := dotless_of_dispatch hweb hdispatch
    rw [sentPath_of_dotless hweb hdotless] at hrouted
    refine ⟨(notebook_routed_iff hpath hid).mp hrouted, ?_⟩
    rw [ApiRequest.LosesPath, Bool.not_eq_true]
    exact (dotless_iff.mp hdotless).1
  · rintro ⟨hshadowed, hloses⟩
    have hdotless := dotless_iff.mpr
      ⟨Bool.eq_false_of_not_eq_true hloses, fun cellId hcell => isDot_id (hid cellId hcell)⟩
    rw [sentPath_of_dotless hweb hdotless]
    exact (notebook_routed_iff hpath hid).mpr hshadowed

/-- The requests about no notebook. -/
theorem other_routed (hweb : web.Lawful) {request : ApiRequest} (path : Chars)
    (hid : ∀ id, request.id? = some id → IsId id) (hother : request.handler.isNotebook = false) :
    request.Routed path (request.segments path) ∧
      web.sentPath (request.segments path) = request.segments path := by
  have hword {s : Chars} (hquote : Percent.quote s = s) (hdot : isDot s = false) :
      (∃ text, s = Percent.quote text) ∧ isDot s = false := ⟨quoted_word hquote, hdot⟩
  have hhypernote := @hword "hypernote".toList (by decide) (by decide)
  have hapi := @hword "api".toList (by decide) (by decide)
  have hdiagnostics := @hword "diagnostics".toList (by decide) (by decide)
  have hjobs := @hword "jobs".toList (by decide) (by decide)
  have hstdin := @hword "stdin".toList (by decide) (by decide)
  have hall : ∀ s ∈ request.segments path,
      (∃ text, s = Percent.quote text) ∧ isDot s = false := by
    cases request with
    | notebook request => cases hother
    | diagnostics =>
        simp only [ApiRequest.segments, List.forall_mem_cons, List.not_mem_nil, false_imp_iff,
          forall_const, and_true]
        exact ⟨hhypernote, hapi, hdiagnostics⟩
    | listJobs =>
        simp only [ApiRequest.segments, List.forall_mem_cons, List.not_mem_nil, false_imp_iff,
          forall_const, and_true]
        exact ⟨hhypernote, hapi, hjobs⟩
    | job jobId =>
        have hjobId := hword (quote_id (hid jobId rfl)) (isDot_id (hid jobId rfl))
        simp only [ApiRequest.segments, List.forall_mem_cons, List.not_mem_nil, false_imp_iff,
          forall_const, and_true]
        exact ⟨hhypernote, hapi, hjobs, hjobId⟩
    | stdin jobId =>
        have hjobId := hword (quote_id (hid jobId rfl)) (isDot_id (hid jobId rfl))
        simp only [ApiRequest.segments, List.forall_mem_cons, List.not_mem_nil, false_imp_iff,
          forall_const, and_true]
        exact ⟨hhypernote, hapi, hjobs, hjobId, hstdin⟩
  have hquoted : Quoted (request.segments path) := fun s hs => (hall s hs).1
  constructor
  · rw [ApiRequest.Routed, firstMatch_urlPath hquoted.slashless]
    cases request with
    | notebook request => cases hother
    | diagnostics => rfl
    | listJobs => rfl
    | job jobId =>
        obtain ⟨hne, -⟩ := hid jobId rfl
        simp [urlPatterns, captured, apiPattern, notebookPattern, UrlPattern.matchSegments,
          ApiRequest.segments, ApiRequest.handler, ApiRequest.groups, hne]
    | stdin jobId =>
        obtain ⟨hne, -⟩ := hid jobId rfl
        simp [urlPatterns, captured, apiPattern, notebookPattern, UrlPattern.matchSegments,
          ApiRequest.segments, ApiRequest.handler, ApiRequest.groups, hne]
  · rw [hweb.sentPath_eq _ hquoted]
    exact foldl_putSegment_eq (fun s hs => (hall s hs).2) []

/-- A request is routed to its own handler exactly if no earlier pattern takes its cell id for a
word; as it arrives, exactly if besides the path is no dot segment. -/
theorem request_routed_iff (hweb : web.Lawful) (hpath : path ≠ []) {request : ApiRequest}
    (hid : ∀ id, request.id? = some id → IsId id) :
    (request.Routed path (request.segments path) ↔ ¬ request.Shadowed) ∧
      (request.Routed path (web.sentPath (request.segments path)) ↔
        ¬ request.Shadowed ∧ ¬ request.LosesPath path) := by
  cases request with
  | notebook request =>
      exact ⟨notebook_routed_iff hpath hid, notebook_sent_routed_iff hweb hpath hid⟩
  | _ =>
      obtain ⟨hrouted, hsent⟩ := other_routed hweb path hid rfl
      rw [hsent]
      exact ⟨iff_of_true hrouted not_false, iff_of_true hrouted ⟨not_false, not_false⟩⟩

end

/-- A request about a cell whose id is no word of the patterns. -/
theorem cell_request_routed :
    (ApiRequest.notebook (.cell "setup-1".toList)).Routed "dir/a.ipynb".toList
      (plainWeb.sentPath
        ((ApiRequest.notebook (.cell "setup-1".toList)).segments "dir/a.ipynb".toList)) := by
  refine (request_routed_iff plainWeb_lawful (by decide) ?_).2.mpr ⟨?_, ?_⟩
  · rintro id ⟨⟩
    exact isId_of_all (by decide) (by decide)
  · rintro (h | h)
    · cases h
    · cases h
  · exact fun h => nomatch (h : false = true)

/-- The ids "document" and "cells" are ids of cells as good as others. -/
theorem document_cell_misrouted :
    IsId "document".toList ∧ IsId "cells".toList ∧
      ¬ (ApiRequest.notebook (.cell "document".toList)).Routed "a.ipynb".toList
          ((ApiRequest.notebook (.cell "document".toList)).segments "a.ipynb".toList) ∧
      ¬ (ApiRequest.notebook (.moveCell "cells".toList)).Routed "a.ipynb".toList
          ((ApiRequest.notebook (.moveCell "cells".toList)).segments "a.ipynb".toList) := by
  have hdocument : IsId "document".toList := isId_of_all (by decide) (by decide)
  have hcells : IsId "cells".toList := isId_of_all (by decide) (by decide)
  refine ⟨hdocument, hcells, ?_, ?_⟩
  · refine (notebook_routed_iff (by decide) ?_).not.mpr (not_not.mpr (.inr rfl))
    rintro cellId ⟨⟩
    exact hdocument
  · refine (notebook_routed_iff (by decide) ?_).not.mpr (not_not.mpr (.inl rfl))
    rintro cellId ⟨⟩
    exact hcells

end Hypernote
