import Hypernote.Urls
/-!
# Notebook paths in URLs

The SDK quotes a path once, Tornado decodes it once, and the handlers decode it once more.  So a path
arrives as it is exactly if it can be encoded, has no escape of its own, and the routes tell it apart;
as an argument of the query it must also have nothing that `get_argument` takes away.
-/

namespace Hypernote

open Foundation

section

variable {α : Type}

/-- The handler that is meant. -/
def NotebookRequest.handler : NotebookRequest α → Handler
  | .document => .notebookDocument
  | .runtime => .runtimeStatus
  | .runtimeOpen => .runtimeOpen
  | .runtimeStop => .runtimeStop
  | .execute => .execute
  | .interrupt => .interrupt
  | .cells => .notebookCells
  | .cell _ => .notebookCell
  | .moveCell _ => .notebookCellMove
  | .clearOutputs _ => .notebookCellClearOutputs

/-- The cell that the request is about. -/
def NotebookRequest.cellId? : NotebookRequest α → Option α
  | .cell cellId | .moveCell cellId | .clearOutputs cellId => some cellId
  | _ => none

end

/-- A request of the SDK about a notebook path. -/
inductive SdkRequest
  | notebook (request : NotebookRequest PyStr)
  | listJobs

/-- The request arrives at its handler with the path and the cell it was made for. -/
def Survives (web : Web) (query : Query) (path : PyStr) : SdkRequest → Prop
  | .notebook request =>
      callOperatesOn web path request = some (request.handler, path, request.cellId?)
  | .listJobs => listedNotebook query path = some path

def isDot (segment : Chars) : Bool := segment = ['.'] || segment = ['.', '.']

/-- The URL of the request is taken apart as it was put together: neither the path nor the cell id
is empty or a dot segment, and no earlier route takes the cell id for its own last segment. -/
def Routable (path : Chars) (request : NotebookRequest) : Prop :=
  path ≠ [] ∧ isDot path = false ∧ ∀ cellId, request.cellId? = some cellId →
    cellId ≠ [] ∧ isDot cellId = false ∧ cellId ≠ "cells".toList ∧
      (request = .cell cellId → cellId ≠ "document".toList)

/-- The text has no control characters, and no white space at its ends. -/
def PlainArgument (text : Chars) : Prop :=
  (∀ c ∈ text, isControlChar c = false) ∧
    (∀ c ∈ text.head?, PyText.isSpace c = false) ∧ ∀ c ∈ text.getLast?, PyText.isSpace c = false

instance decidablePlainArgument (text : Chars) : Decidable (PlainArgument text) :=
  -- `Char` is finite, and to go through all its values takes too long
  @instDecidableAnd _ _ (List.decidableBAll _ text)
    (@instDecidableAnd _ _ (Option.decidableForallMem text.head?)
      (Option.decidableForallMem text.getLast?))

/-- What a path without surrogates and without escapes must be for the request to arrive. -/
def Arrives (path : Chars) : SdkRequest → Prop
  | .notebook request => ∃ encoded, request.encode? = some encoded ∧ Routable path encoded
  | .listJobs => path ≠ [] ∧ PlainArgument path

/-! ## What is sent -/

theorem quote_eq_nil_iff {s : Chars} : Percent.quote s = [] ↔ s = [] := by
  rw [← Percent.quote_injective.eq_iff (a := s)]
  exact Iff.rfl

/-- Texts that `quote` leaves alone. -/
theorem quote_eq_iff {s text : Chars} (h : Percent.quote text = text) :
    Percent.quote s = text ↔ s = text := by
  rw [← Percent.quote_injective.eq_iff (a := s), h]

theorem quoted_quote (s : Chars) : ∃ text, Percent.quote s = Percent.quote text := ⟨s, rfl⟩

theorem quoted_word {s : Chars} (h : Percent.quote s = s) : ∃ text, s = Percent.quote text :=
  ⟨s, h.symm⟩

theorem quoted_requestPath (path : Chars) (request : NotebookRequest) :
    ∀ s ∈ requestPath path request, ∃ text, s = Percent.quote text := by
  rw [requestPath, notebooksRoot]
  cases request <;>
    simp only [NotebookRequest.segments, List.cons_append, List.nil_append, List.forall_mem_cons,
      List.not_mem_nil, false_imp_iff, forall_const, and_true] <;>
    and_intros <;>
    first
      | exact quoted_quote _
      | exact quoted_word (by decide)

theorem putSegment_length (out : List Chars) (segment : Chars) :
    (putSegment out segment).length ≤ out.length + 1 ∧
      (isDot segment = true → (putSegment out segment).length ≤ out.length) := by
  unfold putSegment isDot
  split_ifs with hdot hdots
  · exact ⟨Nat.le_succ _, fun _ => le_refl _⟩
  · rw [List.length_dropLast]
    exact ⟨by omega, fun _ => by omega⟩
  · rw [List.length_append, List.length_singleton]
    refine ⟨le_refl _, fun h => ?_⟩
    simp [hdot, hdots] at h

theorem foldl_putSegment_length (segments out : List Chars) :
    (segments.foldl putSegment out).length ≤ out.length + segments.length := by
  induction segments generalizing out with
  | nil => exact le_refl _
  | cons segment segments ih =>
      have hput := (putSegment_length out segment).1
      have hrest := ih (putSegment out segment)
      rw [List.foldl_cons, List.length_cons]
      omega

/-- A path with a dot segment gets shorter. -/
theorem foldl_putSegment_length_lt {segments : List Chars} {segment : Chars}
    (hmem : segment ∈ segments) (hdot : isDot segment = true) (out : List Chars) :
    (segments.foldl putSegment out).length < out.length + segments.length := by
  induction segments generalizing out with
  | nil => cases hmem
  | cons head segments ih =>
      obtain ⟨hput, hputDot⟩ := putSegment_length out head
      rw [List.foldl_cons, List.length_cons]
      rcases List.mem_cons.mp hmem with rfl | hmem
      · have hrest := foldl_putSegment_length segments (putSegment out segment)
        have := hputDot hdot
        omega
      · have hrest := ih hmem (putSegment out head)
        omega

theorem foldl_putSegment_eq {segments : List Chars} (h : ∀ s ∈ segments, isDot s = false)
    (out : List Chars) : segments.foldl putSegment out = out ++ segments := by
  induction segments generalizing out with
  | nil => exact (List.append_nil out).symm
  | cons segment segments ih =>
      have hput : putSegment out segment = out ++ [segment] := by
        have hsegment := h segment List.mem_cons_self
        simp only [isDot, Bool.or_eq_false_iff, decide_eq_false_iff_not] at hsegment
        rw [putSegment, if_neg hsegment.1, if_neg hsegment.2]
      rw [List.foldl_cons, hput, ih fun s hs => h s (List.mem_cons_of_mem _ hs)]
      exact (List.append_cons out segment segments).symm

/-! ## What the routes capture -/

theorem matchRoute_some {pieces : List Piece} {segments : List Chars}
    {groups : Chars × Option Chars} (h : matchRoute pieces segments = some groups) :
    pieces.length < segments.length := by
  simp only [matchRoute] at h
  by_contra hle
  rw [Nat.sub_eq_zero_of_le (Nat.le_of_not_lt hle)] at h
  simp at h

/-- The end of the route that leads to the handler. -/
def NotebookRequest.pieces : NotebookRequest → List Piece
  | .document => [.text "document".toList]
  | .runtime => [.text "runtime".toList]
  | .runtimeOpen => [.text "runtime".toList, .text "open".toList]
  | .runtimeStop => [.text "runtime".toList, .text "stop".toList]
  | .execute => [.text "execute".toList]
  | .interrupt => [.text "interrupt".toList]
  | .cells => [.text "cells".toList]
  | .cell _ => [.text "cells".toList, .cellId]
  | .moveCell _ => [.text "cells".toList, .cellId, .text "move".toList]
  | .clearOutputs _ => [.text "cells".toList, .cellId, .text "clear-outputs".toList]

theorem route_pieces {request : NotebookRequest} {route : List Piece × Handler}
    (hroute : route ∈ routes) (hhandler : route.2 = request.handler) :
    route.1 = request.pieces := by
  have hall : ∀ request : NotebookRequest, ∀ route ∈ routes, route.2 = request.handler →
      route.1 = request.pieces := by
    intro request
    cases request <;> simp only [NotebookRequest.handler, NotebookRequest.pieces] <;> decide
  exact hall request route hroute hhandler

theorem dispatch_some {path : List Chars} {handler : Handler} {groups : Chars × Option Chars}
    (h : dispatch path = some (handler, groups)) :
    ∃ segments, path = notebooksRoot ++ segments ∧
      ∃ route ∈ routes, route.2 = handler ∧ matchRoute route.1 segments = some groups := by
  match path, h with
  | hypernote :: api :: notebooks :: segments, h =>
      rw [dispatch] at h
      split at h
      · rename_i hroot
        obtain ⟨route, hroute, hmatch⟩ := List.exists_of_findSome?_eq_some h
        obtain ⟨groups', hgroups, heq⟩ := Option.map_eq_some_iff.mp hmatch
        cases heq
        exact ⟨segments, by rw [← hroot]; rfl, route, hroute, rfl, hgroups⟩
      · cases h

theorem matchRoute_cons {pieces : List Piece} {q : Chars} {segments : List Chars}
    (hlength : segments.length = pieces.length) :
    matchRoute pieces (q :: segments) =
      if q = [] then none else (matchPieces pieces segments).map fun cellId => (q, cellId) := by
  have hcount : (q :: segments).length - pieces.length = 1 := by
    rw [List.length_cons, hlength]
    exact Nat.add_sub_cancel_left _ _
  rw [matchRoute, hcount]
  simp [List.intercalate]

theorem matchPieces_request (request : NotebookRequest) :
    matchPieces request.pieces request.segments =
      if request.cellId? = some [] then none
      else some (request.cellId?.map Percent.quote) := by
  cases request <;>
    simp [NotebookRequest.pieces, NotebookRequest.segments, NotebookRequest.cellId?, matchPieces,
      quote_eq_nil_iff]

theorem length_segments (request : NotebookRequest) :
    request.segments.length = request.pieces.length := by
  cases request <;> rfl

/-- No earlier route matches. -/
theorem dispatch_request {q : Chars} (hq : q ≠ []) {request : NotebookRequest}
    (hcell : ∀ cellId, request.cellId? = some cellId → cellId ≠ [] ∧ cellId ≠ "cells".toList ∧
      (request = .cell cellId → cellId ≠ "document".toList)) :
    dispatch (notebooksRoot ++ q :: request.segments) =
      some (request.handler, q, request.cellId?.map Percent.quote) := by
  have hquoted : ∀ cellId, request.cellId? = some cellId →
      Percent.quote cellId ≠ [] ∧ Percent.quote cellId ≠ "cells".toList ∧
        (request = .cell cellId → Percent.quote cellId ≠ "document".toList) := by
    intro cellId hid
    rw [Ne, quote_eq_nil_iff, Ne, quote_eq_iff (by decide), Ne, quote_eq_iff (by decide)]
    exact hcell cellId hid
  cases request with
  | cell cellId =>
      obtain ⟨hnil, hcells, hdocument⟩ := hquoted cellId rfl
      have hdocument := hdocument rfl
      simp at hcells hdocument
      simp [dispatch, notebooksRoot, NotebookRequest.segments, routes, matchRoute, matchPieces,
        List.intercalate, NotebookRequest.handler, NotebookRequest.cellId?, hq, hnil, hcells,
        hdocument]
  | moveCell cellId =>
      obtain ⟨hnil, hcells, -⟩ := hquoted cellId rfl
      simp at hcells
      simp [dispatch, notebooksRoot, NotebookRequest.segments, routes, matchRoute, matchPieces,
        List.intercalate, NotebookRequest.handler, NotebookRequest.cellId?, hq, hnil, hcells]
  | clearOutputs cellId =>
      obtain ⟨hnil, hcells, -⟩ := hquoted cellId rfl
      simp at hcells
      simp [dispatch, notebooksRoot, NotebookRequest.segments, routes, matchRoute, matchPieces,
        List.intercalate, NotebookRequest.handler, NotebookRequest.cellId?, hq, hnil, hcells]
  | _ =>
      simp [dispatch, notebooksRoot, NotebookRequest.segments, routes, matchRoute, matchPieces,
        List.intercalate, NotebookRequest.handler, NotebookRequest.cellId?, hq]

/-- An earlier route takes the cell id for its own last segment. -/
theorem dispatch_shadowed (q : Chars) {request : NotebookRequest} {cellId : Chars}
    (hid : request.cellId? = some cellId)
    (hshadow : cellId = "cells".toList ∨ request = .cell cellId ∧ cellId = "document".toList)
    (groups : Chars × Option Chars) :
    dispatch (notebooksRoot ++ q :: request.segments) ≠ some (request.handler, groups) := by
  have hcells : Percent.quote "cells".toList = "cells".toList := by decide
  have hdocument : Percent.quote "document".toList = "document".toList := by decide
  rcases hshadow with rfl | ⟨rfl, rfl⟩
  · cases request <;> cases hid <;>
      simp [dispatch, notebooksRoot, NotebookRequest.segments, routes, matchRoute, matchPieces,
        List.intercalate, NotebookRequest.handler, show Percent.quote ['c', 'e', 'l', 'l', 's'] =
          ['c', 'e', 'l', 'l', 's'] from hcells]
  · simp [dispatch, notebooksRoot, NotebookRequest.segments, routes, matchRoute, matchPieces,
      List.intercalate, NotebookRequest.handler,
      show Percent.quote ['d', 'o', 'c', 'u', 'm', 'e', 'n', 't'] =
        ['d', 'o', 'c', 'u', 'm', 'e', 'n', 't'] from hdocument]

/-! ## What a handler operates on -/

variable {web : Web}

theorem pathArgument_quote (hweb : web.Lawful) (s : Chars) :
    web.pathArgument (Percent.quote s) = s :=
  hweb.pathArgument_eq _ _ (Percent.unquoteToBytes_quote s)

theorem sentPath_of_dotless (hweb : web.Lawful) {path : Chars} {request : NotebookRequest}
    (h : ∀ s ∈ requestPath path request, isDot s = false) :
    web.sentPath (requestPath path request) = requestPath path request := by
  rw [hweb.sentPath_eq _ (quoted_requestPath path request)]
  exact foldl_putSegment_eq h []

/-- A path with a dot segment gets too short for the route that is meant. -/
theorem dotless_of_dispatch (hweb : web.Lawful) {path : Chars} {request : NotebookRequest}
    {groups : Chars × Option Chars}
    (h : dispatch (web.sentPath (requestPath path request)) = some (request.handler, groups)) :
    ∀ s ∈ requestPath path request, isDot s = false := by
  intro s hs
  by_contra hdot
  obtain ⟨segments, hsent, route, hroute, hhandler, hmatch⟩ := dispatch_some h
  have hlong := matchRoute_some hmatch
  have hshort := foldl_putSegment_length_lt hs (Bool.not_eq_false _ ▸ hdot) []
  rw [route_pieces hroute hhandler, ← length_segments] at hlong
  rw [hweb.sentPath_eq _ (quoted_requestPath path request), removeDotSegments] at hsent
  rw [hsent, requestPath] at hshort
  simp only [List.length_append, List.length_cons, List.length_nil] at hshort
  omega

theorem groups_of_dispatch {path : Chars} {request : NotebookRequest}
    {groups : Chars × Option Chars}
    (h : dispatch (requestPath path request) = some (request.handler, groups)) :
    path ≠ [] ∧ request.cellId? ≠ some [] ∧
      groups = (Percent.quote path, request.cellId?.map Percent.quote) := by
  obtain ⟨segments, hsegments, route, hroute, hhandler, hmatch⟩ := dispatch_some h
  obtain rfl := List.append_cancel_left hsegments
  rw [route_pieces hroute hhandler, matchRoute_cons (length_segments request),
    matchPieces_request] at hmatch
  split_ifs at hmatch with hpath hcell
  · cases hmatch
  · rw [quote_eq_nil_iff] at hpath
    exact ⟨hpath, hcell, (Option.some.inj hmatch).symm⟩

/-- Nothing can be a dot segment but the path and the cell id. -/
theorem dotless_iff {path : Chars} {request : NotebookRequest} :
    (∀ s ∈ requestPath path request, isDot s = false) ↔
      isDot path = false ∧ ∀ cellId, request.cellId? = some cellId → isDot cellId = false := by
  have hdot (s : Chars) : Percent.quote s = ['.'] ↔ s = ['.'] := quote_eq_iff (by decide)
  have hdots (s : Chars) : Percent.quote s = ['.', '.'] ↔ s = ['.', '.'] := quote_eq_iff (by decide)
  rw [requestPath, notebooksRoot]
  cases request <;>
    simp [NotebookRequest.segments, NotebookRequest.cellId?, isDot, hdot, hdots]

theorem operatesOn_iff (hweb : web.Lawful) {path : Chars} {request : NotebookRequest} :
    operatesOn web path request = some (request.handler, path, request.cellId?) ↔
      ¬ Percent.HasEscape path ∧ Routable path request := by
  constructor
  · intro h
    obtain ⟨⟨handler, groups⟩, hdispatch, heq⟩ := Option.map_eq_some_iff.mp h
    simp only [Prod.mk.injEq] at heq
    obtain ⟨rfl, hpath, -⟩ := heq
    have hdotless := dotless_of_dispatch hweb hdispatch
    rw [sentPath_of_dotless hweb hdotless] at hdispatch
    obtain ⟨hne, hcell, rfl⟩ := groups_of_dispatch hdispatch
    rw [pathArgument_quote hweb, decodeNotebookId, Percent.unquote_eq_iff] at hpath
    obtain ⟨hpathDot, hcellDot⟩ := dotless_iff.mp hdotless
    refine ⟨hpath, hne, hpathDot, fun cellId hid => ⟨?_, hcellDot cellId hid, ?_, ?_⟩⟩
    · exact fun hnil => hcell (hnil ▸ hid)
    · exact fun hcells => dispatch_shadowed _ hid (.inl hcells) _ hdispatch
    · exact fun hrequest hdocument =>
        dispatch_shadowed _ hid (.inr ⟨hrequest, hdocument⟩) _ hdispatch
  · rintro ⟨hescape, hne, hpathDot, hcell⟩
    have hdotless := dotless_iff.mpr ⟨hpathDot, fun cellId hid => (hcell cellId hid).2.1⟩
    have hquoted : Percent.quote path ≠ [] := fun hnil => hne (quote_eq_nil_iff.mp hnil)
    have hdispatch : dispatch (notebooksRoot ++ Percent.quote path :: request.segments) =
        some (request.handler, Percent.quote path, request.cellId?.map Percent.quote) :=
      dispatch_request hquoted fun cellId hid => ⟨(hcell cellId hid).1, (hcell cellId hid).2.2⟩
    have hdecoded : decodeNotebookId (web.pathArgument (Percent.quote path)) = path := by
      rw [pathArgument_quote hweb, decodeNotebookId, Percent.unquote_eq_iff.mpr hescape]
    have hcellId : (request.cellId?.map Percent.quote).map web.pathArgument = request.cellId? := by
      rw [Option.map_map, show web.pathArgument ∘ Percent.quote = id from
        funext (pathArgument_quote hweb), Option.map_id_fun, id]
    rw [operatesOn, sentPath_of_dotless hweb hdotless, requestPath, hdispatch, Option.map_some]
    simp only [hdecoded, hcellId]

theorem encode?_eq_some {request : NotebookRequest PyStr} {encoded : NotebookRequest}
    (h : request.encode? = some encoded) :
    encoded.handler = request.handler ∧ encoded.cellId?.map PyStr.ofChars = request.cellId? := by
  cases request with
  | cell cellId | moveCell cellId | clearOutputs cellId =>
      obtain ⟨chars, hchars, rfl⟩ := Option.map_eq_some_iff.mp h
      obtain rfl := PyStr.toChars?_eq_some.mp hchars
      exact ⟨rfl, rfl⟩
  | _ =>
      cases h
      exact ⟨rfl, rfl⟩

theorem callOperatesOn_iff (hweb : web.Lawful) {path : PyStr} {request : NotebookRequest PyStr} :
    callOperatesOn web path request = some (request.handler, path, request.cellId?) ↔
      ∃ chars, path.toChars? = some chars ∧ ¬ Percent.HasEscape chars ∧
        Arrives chars (.notebook request) := by
  have hcall {chars : Chars} {encoded : NotebookRequest} (hchars : path.toChars? = some chars)
      (hencoded : request.encode? = some encoded) :
      callOperatesOn web path request = some (request.handler, path, request.cellId?) ↔
        operatesOn web chars encoded = some (encoded.handler, chars, encoded.cellId?) := by
    obtain ⟨hhandler, hcell⟩ := encode?_eq_some hencoded
    have hinjective := Option.map_injective ((@Function.injective_id Handler).prodMap
      (PyStr.ofChars_injective.prodMap (Option.map_injective PyStr.ofChars_injective)))
    have hmap : callOperatesOn web path request = (operatesOn web chars encoded).map
        (Prod.map id (Prod.map PyStr.ofChars (Option.map PyStr.ofChars))) := by
      rw [callOperatesOn, hchars, hencoded]
      change (operatesOn web chars encoded).bind _ = _
      cases operatesOn web chars encoded <;> rfl
    rw [hmap, ← hhandler, ← hcell, PyStr.toChars?_eq_some.mp hchars]
    exact hinjective.eq_iff (b := some (encoded.handler, chars, encoded.cellId?))
  constructor
  · intro h
    obtain ⟨chars, hchars, hrest⟩ := Option.bind_eq_some_iff.mp h
    obtain ⟨encoded, hencoded, -⟩ := Option.bind_eq_some_iff.mp hrest
    obtain ⟨hescape, hroutable⟩ := (operatesOn_iff hweb).mp ((hcall hchars hencoded).mp h)
    exact ⟨chars, hchars, hescape, encoded, hencoded, hroutable⟩
  · rintro ⟨chars, hchars, hescape, encoded, hencoded, hroutable⟩
    exact (hcall hchars hencoded).mpr ((operatesOn_iff hweb).mpr ⟨hescape, hroutable⟩)

/-! ## What the list of jobs is asked for -/

variable {query : Query}

theorem length_getArgument_le (s : Chars) : (getArgument s).length ≤ s.length :=
  (PyText.strip_sublist _).length_le.trans (List.length_map _).le

theorem getArgument_eq_iff {s : Chars} : getArgument s = s ↔ PlainArgument s := by
  have hmap : s.map (fun c => if isControlChar c then ' ' else c) = s ↔
      ∀ c ∈ s, isControlChar c = false := by
    conv_lhs => rhs; rw [← List.map_id s]
    rw [List.map_inj_left]
    refine forall₂_congr fun c _ => ?_
    rw [id]
    split_ifs with hc
    · simp only [hc, Bool.true_eq_false, iff_false]
      rintro rfl
      exact absurd hc (by decide)
    · simpa using hc
  rw [PlainArgument, ← PyText.strip_eq_self_iff, getArgument]
  constructor
  · intro h
    have hkept : s.map (fun c => if isControlChar c then ' ' else c) = s :=
      ((PyText.strip_sublist _).eq_of_length (by rw [h, List.length_map])).symm.trans h
    rw [hkept] at h
    exact ⟨hmap.mp hkept, h⟩
  · rintro ⟨hcontrol, hstrip⟩
    rw [hmap.mpr hcontrol, hstrip]

/-- Neither `get_argument` nor the second decoding makes a text longer. -/
theorem decode_getArgument_iff {s : Chars} :
    decodeNotebookId (getArgument s) = s ↔ ¬ Percent.HasEscape s ∧ PlainArgument s := by
  rw [← getArgument_eq_iff, decodeNotebookId]
  constructor
  · intro h
    have hnone : ¬ Percent.HasEscape (getArgument s) := by
      intro hescape
      have hlt := (Percent.length_unquote_lt hescape).trans_le (length_getArgument_le s)
      exact absurd (congrArg List.length h) hlt.ne
    have hsame := (Percent.unquote_eq_iff.mpr hnone).symm.trans h
    exact ⟨hsame ▸ hnone, hsame⟩
  · rintro ⟨hescape, hsame⟩
    rw [hsame, Percent.unquote_eq_iff.mpr hescape]

theorem listedNotebook_iff (hquery : query.Lawful) {path : PyStr} :
    listedNotebook query path = some path ↔
      ∃ chars, path.toChars? = some chars ∧ ¬ Percent.HasEscape chars ∧
        Arrives chars .listJobs := by
  have hlisted {chars : Chars} (hne : path ≠ []) (hchars : path.toChars? = some chars) :
      listedNotebook query path = some path ↔
        ¬ Percent.HasEscape chars ∧ PlainArgument chars := by
    rw [listedNotebook, listJobsParam, if_neg hne, Option.bind_eq_bind, Option.bind_some, hchars,
      Option.bind_eq_bind, Option.bind_some, hquery.read_written, ← decode_getArgument_iff,
      PyStr.toChars?_eq_some.mp hchars]
    exact Option.some_inj.trans PyStr.ofChars_injective.eq_iff
  constructor
  · intro h
    obtain ⟨value, hvalue, hrest⟩ := Option.bind_eq_some_iff.mp h
    obtain ⟨hne, -⟩ := Option.ite_none_left_eq_some.mp hvalue
    obtain ⟨chars, hchars, -⟩ := Option.bind_eq_some_iff.mp hrest
    cases (Option.ite_none_left_eq_some.mp hvalue).2
    obtain ⟨hescape, hplain⟩ := (hlisted hne hchars).mp h
    refine ⟨chars, hchars, hescape, ?_, hplain⟩
    rintro rfl
    exact hne (PyStr.toChars?_eq_some.mp hchars)
  · rintro ⟨chars, hchars, hescape, hne, hplain⟩
    refine (hlisted ?_ hchars).mpr ⟨hescape, hplain⟩
    rintro rfl
    cases hchars
    exact hne rfl

/-- A request survives exactly if the path and the cell id can be encoded, the path has no escape of
its own, and the URL is taken apart as it was put together. -/
theorem path_survives_iff (hweb : web.Lawful) (hquery : query.Lawful) (path : PyStr)
    (request : SdkRequest) :
    Survives web query path request ↔
      ∃ chars, path.toChars? = some chars ∧ ¬ Percent.HasEscape chars ∧
        Arrives chars request := by
  cases request with
  | notebook request => exact callOperatesOn_iff hweb
  | listJobs => exact listedNotebook_iff hquery

/-! ## Two notebooks -/

/-- A text percent-decoded once. -/
def decodedOnce (s : Chars) : Chars := (utf8Decode? (Percent.unquoteToBytes s)).getD []

theorem decodedOnce_eq {s text : Chars} (h : Percent.unquoteToBytes s = utf8Encode text) :
    decodedOnce s = text := by
  rw [decodedOnce, h, utf8Decode?_utf8Encode, Option.getD_some]

def plainWeb : Web where
  sentPath := removeDotSegments
  pathArgument := decodedOnce

theorem plainWeb_lawful : plainWeb.Lawful where
  sentPath_eq _ _ := rfl
  pathArgument_eq _ _ := decodedOnce_eq

def plainQuery : Query where
  written := Percent.quote
  read := decodedOnce

theorem plainQuery_lawful : plainQuery.Lawful where
  read_written value := decodedOnce_eq (Percent.unquoteToBytes_quote value)

/-- A percent sign alone does no harm, nor does white space inside, and a cell id may look
percent-encoded. -/
theorem percent_path_survives :
    Survives plainWeb plainQuery (pyStr "dir/50% done é.ipynb")
        (.notebook (.moveCell (pyStr "%41"))) ∧
      Survives plainWeb plainQuery (pyStr "dir/50% done é.ipynb") .listJobs := by
  constructor
  · refine (path_survives_iff plainWeb_lawful plainQuery_lawful _ _).mpr
      ⟨"dir/50% done é.ipynb".toList, toChars?_pyStr _, by decide, .moveCell "%41".toList, ?_,
        by decide, by decide, ?_⟩
    · rw [NotebookRequest.encode?, toChars?_pyStr]
      rfl
    · rintro cellId ⟨⟩
      exact ⟨by decide, by decide, by decide, fun h => by cases h⟩
  · exact (path_survives_iff plainWeb_lawful plainQuery_lawful _ _).mpr
      ⟨"dir/50% done é.ipynb".toList, toChars?_pyStr _, by decide, by decide, by decide⟩

/-- A notebook whose name looks percent-encoded or begins with a blank, a lone surrogate in a path,
and a cell with the id "document". -/
theorem encoded_path_not_survives :
    ¬ Survives plainWeb plainQuery (pyStr "a%20b.ipynb") .listJobs ∧
      ¬ Survives plainWeb plainQuery (pyStr " a.ipynb") .listJobs ∧
      ¬ Survives plainWeb plainQuery (pyStr "a%20b.ipynb") (.notebook .document) ∧
      ¬ Survives plainWeb plainQuery (0xd800 :: pyStr ".ipynb") (.notebook .document) ∧
      ¬ Survives plainWeb plainQuery (pyStr "a.ipynb") (.notebook (.cell (pyStr "document"))) := by
  have hsame {s : String} {chars : Chars} (h : PyStr.toChars? (pyStr s) = some chars) :
      chars = s.toList := Option.some.inj (h.symm.trans (toChars?_pyStr s))
  refine ⟨?_, ?_, ?_, ?_, ?_⟩
  · rw [Survives, listedNotebook_iff plainQuery_lawful]
    rintro ⟨chars, hchars, hescape, -⟩
    rw [hsame hchars] at hescape
    exact hescape (by decide)
  · rw [Survives, listedNotebook_iff plainQuery_lawful]
    rintro ⟨chars, hchars, -, -, -, hhead, -⟩
    rw [hsame hchars] at hhead
    exact absurd (hhead ' ' rfl) (by decide)
  · rw [Survives, callOperatesOn_iff plainWeb_lawful]
    rintro ⟨chars, hchars, hescape, -⟩
    rw [hsame hchars] at hescape
    exact hescape (by decide)
  · rw [Survives, callOperatesOn_iff plainWeb_lawful]
    rintro ⟨chars, hchars, -⟩
    exact absurd hchars (by simp [PyStr.toChars?, Nat.isValidChar])
  · rw [Survives, callOperatesOn_iff plainWeb_lawful]
    rintro ⟨chars, -, -, encoded, hencoded, -, -, hcell⟩
    rw [NotebookRequest.encode?, toChars?_pyStr] at hencoded
    cases hencoded
    exact (hcell _ rfl).2.2.2 rfl rfl

end Hypernote
