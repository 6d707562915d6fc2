import Hypernote.Client.CellEdits
import Hypernote.Proofs.NotebookPaths
import Mathlib.Data.List.TakeDrop
/-!
# Clients edit documents

Between a method of the SDK and the edit of the document there are a quoted path, the routes, a JSON
body and the headers.  A call that gets through does to the document of its notebook what the edit
does, and leaves the documents of all other notebooks alone; so each document is what the calls for
it make of it, in their order, whatever is called for others in between.
-/

namespace Hypernote

open Foundation

variable {ω μ : Type} [EmptyCollection μ] {lib : YNotebook Chars ω μ}

/-! ## The edit of a document -/

/-- What a call does to the document, and whether it returns. -/
def YNotebook.discard {α : Type} (lib : YNotebook Chars ω μ) (outcome : lib.Outcome α) :
    Bool × List lib.YCell :=
  (outcome.1.toBool, outcome.2)

/-- The edit that the method stands for. -/
def EditMethod.edit (lib : YNotebook Chars ω μ) (ycells : List lib.YCell) :
    EditMethod → Bool × List lib.YCell
  | .insert cellType source id generated before after =>
      lib.discard (lib.insertCell
        { id := some (givenOrGenerated id generated)
          cellType := cellType.value
          source := source
          outputs := []
          executionCount := none
          positionKey := none
          metadata := ∅ } before after ycells)
  | .replace cellId source => lib.discard (lib.replaceCellSource cellId source ycells)
  | .delete cellId => lib.discard (lib.deleteCell cellId ycells)
  | .move cellId before after => lib.discard (lib.moveCell cellId before after ycells)
  | .clearOutputs cellId => lib.discard (lib.clearOutputs cellId ycells)

/-- The method has an editor recorded for its cell. -/
def EditMethod.records : EditMethod → Bool
  | .delete _ => false
  | _ => true

namespace SdkCall

/-- The call gets through to its notebook and its cell, and the headers arrive. -/
structure Usable (c : SdkCall) : Prop where
  noEscape : ¬ Percent.HasEscape c.notebook
  routable : Routable c.notebook c.method.path
  actorId : IsHeaderText c.actor.actorId
  actorType : IsHeaderText c.actor.actorType

/-- What is recorded of the call if it returns. -/
def edited (c : SdkCall) (returned : Bool) : Option Edited :=
  if c.method.records && returned then
    some ⟨c.notebook, some c.method.cellId, getActor c.actor.actorId c.actor.actorType⟩
  else none

end SdkCall

/-! ## A body -/

theorem bodyText?_str {body : Json} {key text : String} (h : body.get? key = some (.str text)) :
    bodyText? body key = some (some text.toList) := by
  rw [bodyText?, h]

theorem bodyText?_text {body : Json} {key : String} {text : Chars}
    (h : body.get? key = some (textJson text)) : bodyText? body key = some (some text) := by
  rw [bodyText?_str h, String.toList_ofList]

theorem bodyOptional?_text {body : Json} {key : String} {text : Chars}
    (h : body.get? key = some (textJson text)) : bodyOptional? body key = some (some text) := by
  rw [bodyOptional?, h]
  show some (some (String.ofList text).toList) = _
  rw [String.toList_ofList]

theorem bodyOptional?_optional {body : Json} {key : String} {text : Option Chars}
    (h : body.get? key = some (optionalJson text)) : bodyOptional? body key = some text := by
  cases text with
  | none => rw [bodyOptional?, h]; rfl
  | some text => exact bodyOptional?_text h

theorem uniqueKeys_optional (text : Option Chars) : (optionalJson text).UniqueKeys := by
  cases text <;> trivial

theorem uniqueKeys_jsonBody (m : EditMethod) : ∀ x ∈ m.jsonBody, x.UniqueKeys := by
  have htext : ∀ text, (textJson text).UniqueKeys := fun _ => trivial
  intro x hx
  cases m with
  | insert cellType source id generated before after =>
      obtain rfl := Option.some.inj hx
      refine ⟨?_, htext _, trivial, htext _, uniqueKeys_optional _, uniqueKeys_optional _, trivial⟩
      show ["id", "cell_type", "source", "before", "after"].Nodup
      decide
  | replace cellId source =>
      obtain rfl := Option.some.inj hx
      exact ⟨List.nodup_singleton _, htext _, trivial⟩
  | delete => cases hx
  | move cellId before after =>
      obtain rfl := Option.some.inj hx
      refine ⟨?_, uniqueKeys_optional _, uniqueKeys_optional _, trivial⟩
      show ["before", "after"].Nodup
      decide
  | clearOutputs =>
      obtain rfl := Option.some.inj hx
      exact ⟨List.nodup_nil, trivial⟩

/-- The body that a handler reads is the one that the client sent. -/
theorem getJsonBody_sent {web : HttpWeb} (hweb : web.Lawful) (m : EditMethod) :
    getJsonBody (m.jsonBody.elim [] web.body) = m.jsonBody.getD (.obj []) := by
  cases hbody : m.jsonBody with
  | none => rfl
  | some x =>
      rw [Option.elim_some, getJsonBody, if_neg (hweb.body_ne x),
        hweb.loads_body x (uniqueKeys_jsonBody m x hbody), Option.getD_some]

/-! ## The handler -/

variable (readMetadata : Json → Option (Option String × μ))

/-- What the handler takes from the request of the method. -/
def EditMethod.cellRequest : EditMethod → CellRequest Chars μ
  | .insert cellType source id generated before after =>
      .post ⟨some cellType.value, some (givenOrGenerated id generated), some source, none, before,
        after⟩
  | .replace cellId source => .patch cellId (some source)
  | .delete cellId => .delete cellId
  | .move cellId before after => .move cellId before after
  | .clearOutputs cellId => .clearOutputs cellId

omit [EmptyCollection μ] in
theorem postBody?_insert (cellType : CellType) (id source : Chars) (before after : Option Chars) :
    postBody? readMetadata (.obj
        [("id", textJson id), ("cell_type", .str cellType.value), ("source", textJson source),
          ("before", optionalJson before), ("after", optionalJson after)]) =
      some ⟨some cellType.value, some id, some source, none, before, after⟩ := by
  rw [postBody?, bodyText?_str rfl, bodyOptional?_text rfl, bodyText?_text rfl,
    bodyOptional?_optional rfl, bodyOptional?_optional rfl]
  show some (PostBody.mk (some (String.ofList cellType.value.toList)) _ _ _ _ _) = _
  rw [String.ofList_toList]

omit [EmptyCollection μ] in
theorem cellRequest?_eq (m : EditMethod) :
    cellRequest? readMetadata m.method m.path.handler m.path.cellId? (m.jsonBody.getD (.obj [])) =
      some m.cellRequest := by
  cases m with
  | insert cellType source id generated before after =>
      exact congrArg (Option.map _)
        (postBody?_insert readMetadata cellType (givenOrGenerated id generated) source before after)
  | replace cellId source =>
      have hsource := @bodyText?_text (.obj [("source", textJson source)]) "source" source rfl
      exact congrArg (Option.map (CellRequest.patch cellId)) hsource
  | delete => rfl
  | move cellId before after =>
      rw [EditMethod.jsonBody, Option.getD_some]
      show (bodyOptional? _ _).bind (fun _ => _) = _
      rw [bodyOptional?_optional rfl, bodyOptional?_optional rfl]
      rfl
  | clearOutputs => rfl

omit [EmptyCollection μ] in
/-- A cell that is found by its id has the id. -/
theorem id_of_findCell {ycells : List lib.YCell} {id : Option Chars} {cell : Cell Chars ω μ}
    (h : lib.findCell ycells id = .ok cell) : cell.id = id := by
  rw [YNotebook.findCell] at h
  split at h
  next found hfound =>
    obtain rfl := Except.ok.inj h
    simpa using List.find?_some hfound
  · cases h

omit [EmptyCollection μ] in
theorem id_of_insertCell {cell created : Cell Chars ω μ} {before after : Option Chars}
    {ycells : List lib.YCell} (h : (lib.insertCell cell before after ycells).1 = .ok created) :
    created.id = cell.id := by
  rw [YNotebook.insertCell] at h
  cases hbegin : lib.beginInsert cell before after ycells with
  | error error =>
      rw [hbegin] at h
      cases h
  | ok begun =>
      rw [hbegin] at h
      exact id_of_findCell h

omit [EmptyCollection μ] in
/-- What the end of a handler comes to. -/
theorem answered_eq {errorStatus status : Nat} (herror : isSuccess errorStatus = false)
    (hstatus : isSuccess status = true) {cellId : Cell Chars ω μ → Option Chars} {id : Chars}
    {outcome : lib.Outcome (Cell Chars ω μ)}
    (hid : ∀ cell, outcome.1 = .ok cell → cellId cell = some id) :
    isSuccess (lib.answered errorStatus status cellId outcome).reply.status =
        (lib.discard outcome).1 ∧
      (lib.answered errorStatus status cellId outcome).ycells = (lib.discard outcome).2 ∧
      (lib.answered errorStatus status cellId outcome).attributed =
        if (lib.discard outcome).1 then some (some id) else none := by
  obtain ⟨result, ycells⟩ := outcome
  cases result with
  | error error => exact ⟨herror, rfl, rfl⟩
  | ok cell => exact ⟨hstatus, rfl, congrArg some (hid cell rfl)⟩

/-- The handler does the edit, answers with success if the edit does, and has it recorded. -/
theorem handle_cellRequest (m : EditMethod) (ycells : List lib.YCell) :
    isSuccess (lib.handle ycells m.cellRequest).reply.status = (m.edit lib ycells).1 ∧
      (lib.handle ycells m.cellRequest).ycells = (m.edit lib ycells).2 ∧
      (lib.handle ycells m.cellRequest).attributed =
        if m.records && (m.edit lib ycells).1 then some (some m.cellId) else none := by
  cases m with
  | insert cellType source id generated before after =>
      exact answered_eq rfl rfl fun cell h => id_of_insertCell h
  | replace cellId source =>
      exact answered_eq rfl rfl fun _ _ => rfl
  | delete cellId =>
      simp only [EditMethod.cellRequest, YNotebook.handle, EditMethod.edit]
      obtain ⟨result, ycells⟩ := lib.deleteCell cellId ycells
      cases result <;> exact ⟨rfl, rfl, rfl⟩
  | move cellId before after =>
      exact answered_eq rfl rfl fun _ _ => rfl
  | clearOutputs cellId =>
      exact answered_eq rfl rfl fun _ _ => rfl

/-! ## One call -/

variable {web : HttpWeb} {s : Workspace lib}

/-- What a call that gets through leaves. -/
def SdkCall.after (c : SdkCall) (s : Workspace lib) : Workspace lib where
  ycells := Function.update s.ycells c.notebook (c.method.edit lib (s.ycells c.notebook)).2
  edited := s.edited ++ (c.edited (c.method.edit lib (s.ycells c.notebook)).1).toList

/-- A method that is given both positions raises, as the edit does. -/
theorem edit_of_positions {m : EditMethod} (h : m.positions.1.isSome ∧ m.positions.2.isSome)
    (ycells : List lib.YCell) : m.edit lib ycells = (false, ycells) := by
  cases m with
  | insert cellType source id generated before after =>
      have hraises : validatePosition before after = .error .positions := if_pos h
      rw [EditMethod.edit, YNotebook.insertCell, YNotebook.beginInsert, hraises]
      rfl
  | move cellId before after =>
      have hraises : validatePosition before after = .error .positions := if_pos h
      rw [EditMethod.edit, YNotebook.moveCell, YNotebook.movedCells, hraises]
      rfl
  | replace => cases h.1
  | delete => cases h.1
  | clearOutputs => cases h.1

/-- The server handles the request of a call that gets through for its notebook. -/
theorem serve_request (hweb : web.Lawful) {c : SdkCall} (hc : c.Usable) :
    serve readMetadata web s ⟨c.method.method, requestPath c.notebook c.method.path,
        c.actor.actorId, c.actor.actorType, c.method.jsonBody⟩ =
      some ((lib.handle (s.ycells c.notebook) c.method.cellRequest).reply.status, c.after s) := by
  have hoperates := (operatesOn_iff hweb.toLawful).mpr ⟨hc.noEscape, hc.routable⟩
  obtain ⟨⟨handler, notebookId, cellId⟩, hdispatch, heq⟩ := Option.map_eq_some_iff.mp hoperates
  simp only [Prod.mk.injEq] at heq
  obtain ⟨rfl, hnotebook, hcellId⟩ := heq
  obtain ⟨-, hycells, hattributed⟩ :=
    handle_cellRequest c.method (s.ycells c.notebook)
  have hedited : ((lib.handle (s.ycells c.notebook) c.method.cellRequest).attributed.toList.map
      fun cellId => Edited.mk c.notebook cellId (getActor c.actor.actorId c.actor.actorType)) =
        (c.edited (c.method.edit lib (s.ycells c.notebook)).1).toList := by
    rw [hattributed, SdkCall.edited]
    split <;> rfl
  rw [serve, hdispatch, SdkCall.after, ← hycells, ← hedited]
  simp only [Option.bind_eq_bind, Option.bind_some, hnotebook, hcellId, getJsonBody_sent hweb,
    cellRequest?_eq, hweb.header_eq _ hc.actorId, hweb.header_eq _ hc.actorType]
  rfl

/-- A call that gets through does the edit. -/
theorem call_eq (hweb : web.Lawful) {c : SdkCall} (hc : c.Usable) :
    c.method.call readMetadata web s c.notebook c.actor =
      some ((c.method.edit lib (s.ycells c.notebook)).1, c.after s) := by
  rw [EditMethod.call, EditMethod.request]
  by_cases hpositions : c.method.positions.1.isSome ∧ c.method.positions.2.isSome
  · have hedited : c.edited false = none := by simp [SdkCall.edited]
    rw [if_pos hpositions, SdkCall.after, edit_of_positions hpositions, hedited,
      Function.update_eq_self]
    simp
  · have hstatus := (handle_cellRequest c.method (s.ycells c.notebook)).1
    rw [if_neg hpositions, ← hstatus]
    exact congrArg (Option.map _) (serve_request readMetadata hweb hc)

/-! ## All calls -/

/-- The document of the notebook after the edits of the calls for it. -/
def documentAfter (calls : List SdkCall) (notebook : Chars) (ycells : List lib.YCell) :
    List lib.YCell :=
  (calls.filter (·.notebook = notebook)).foldl (fun ycells c => (c.method.edit lib ycells).2) ycells

/-- Each call returns exactly if its edit succeeds on the document that the earlier calls for its
notebook have left. -/
def Answered (s : Workspace lib) (calls : List SdkCall) (results : List Bool) : Prop :=
  results.length = calls.length ∧
    ∀ pre c post, calls = pre ++ c :: post → results[pre.length]? =
      some (c.method.edit lib (documentAfter pre c.notebook (s.ycells c.notebook))).1

theorem documentAfter_cons (c : SdkCall) (calls : List SdkCall) (notebook : Chars) :
    documentAfter (c :: calls) notebook (s.ycells notebook) =
      documentAfter calls notebook ((c.after s).ycells notebook) := by
  have hafter : (c.after s).ycells =
      Function.update s.ycells c.notebook (c.method.edit lib (s.ycells c.notebook)).2 := rfl
  rw [documentAfter, documentAfter, List.filter_cons, hafter]
  by_cases hnotebook : c.notebook = notebook
  · subst hnotebook
    rw [if_pos (by simp), List.foldl_cons, Function.update_self]
  · rw [if_neg (by simpa using hnotebook), Function.update_of_ne (Ne.symm hnotebook)]

/-- Whatever clients call, on whatever notebooks and in whatever order: each document becomes what
the edits of the calls for its notebook make of it, a call returns exactly if its edit succeeds on
that document, and the editors are recorded of the calls that do. -/
theorem clients_edit_documents (hweb : web.Lawful) (s : Workspace lib) (calls : List SdkCall)
    (hcalls : ∀ c ∈ calls, c.Usable) :
    ∃ results s', serveAll readMetadata web calls s = some (results, s') ∧
      (∀ notebook, s'.ycells notebook = documentAfter calls notebook (s.ycells notebook)) ∧
      Answered s calls results ∧
      s'.edited = s.edited ++ (calls.zip results).filterMap fun answer =>
        answer.1.edited answer.2 := by
  induction calls generalizing s with
  | nil =>
      refine ⟨[], s, rfl, fun _ => rfl, ⟨rfl, ?_⟩, (List.append_nil _).symm⟩
      intro pre c post h
      cases pre <;> cases h
  | cons c calls ih =>
      rw [List.forall_mem_cons] at hcalls
      obtain ⟨results, s', hserved, hycells, ⟨hlength, hanswered⟩, hedited⟩ :=
        ih (c.after s) hcalls.2
      refine ⟨(c.method.edit lib (s.ycells c.notebook)).1 :: results, s', ?_, ?_, ⟨?_, ?_⟩, ?_⟩
      · rw [serveAll, call_eq readMetadata hweb hcalls.1]
        show (serveAll readMetadata web calls (c.after s)).bind _ = _
        rw [hserved]
        rfl
      · intro notebook
        rw [hycells, documentAfter_cons]
      · rw [List.length_cons, List.length_cons, hlength]
      · intro pre c' post h
        cases pre with
        | nil =>
            obtain ⟨rfl, -⟩ := List.cons.inj h
            rfl
        | cons c₀ pre =>
            obtain ⟨rfl, hrest⟩ := List.cons.inj h
            rw [List.length_cons, List.getElem?_cons_succ, hanswered pre c' post hrest,
              documentAfter_cons]
      · rw [hedited, SdkCall.after, List.zip_cons_cons, List.filterMap_cons, List.append_assoc]
        congr 1
        dsimp only
        cases c.edited (c.method.edit lib (s.ycells c.notebook)).1 <;> rfl

section Calls

def plainHttpWeb : HttpWeb where
  toWeb := plainWeb
  header value := value
  body := Json.writeChars .compact

theorem plainHttpWeb_lawful : plainHttpWeb.Lawful where
  toLawful := plainWeb_lawful
  header_eq _ _ := rfl
  loads_body x hx := (Json.loads_writeChars .compact x).trans (congrArg some hx.dicts_eq)
  body_ne x hnil := by
    have hread := Json.loads_writeChars .compact x
    rw [show Json.writeChars .compact x = [] from hnil] at hread
    cases hread

private def sdkActor : ClientActor := ⟨"Jane Doe".toList, "agent".toList⟩

/-- Two notebooks are edited in turn, and one call is for a cell that is not there. -/
private def twoNotebooks : List SdkCall :=
  [⟨"a.ipynb".toList, sdkActor, .insert .code "1".toList (some "x".toList) [] none none⟩,
    ⟨"dir/b.ipynb".toList, sdkActor, .insert .markdown "# b".toList none "0f".toList none none⟩,
    ⟨"a.ipynb".toList, sdkActor, .replace "x".toList "2".toList⟩,
    ⟨"dir/b.ipynb".toList, sdkActor, .delete "x".toList⟩]

theorem two_notebooks_edited :
    ∃ results, ∃ s' : Workspace (YNotebook.ofCells Chars Unit (List String)),
      serveAll (fun _ => none) plainHttpWeb twoNotebooks ⟨fun _ => [], []⟩ = some (results, s') ∧
        (s'.ycells "a.ipynb".toList).map (·.source) = ["2".toList] ∧
          (s'.ycells "dir/b.ipynb".toList).map (·.source) = ["# b".toList] ∧
            results[3]? = some false := by
  have hid : IsHeaderText sdkActor.actorId := by decide
  have htype : IsHeaderText sdkActor.actorType := by decide
  have hcell {path cellId : Chars} (hpath : path ≠ [] ∧ isDot path = false)
      (hid : cellId ≠ [] ∧ isDot cellId = false ∧ cellId ≠ "cells".toList ∧
        cellId ≠ "document".toList) : Routable path (.cell cellId) := by
    refine ⟨hpath.1, hpath.2, fun cellId' h => ?_⟩
    obtain rfl := Option.some.inj h
    exact ⟨hid.1, hid.2.1, hid.2.2.1, fun _ => hid.2.2.2⟩
  have hcells {path : Chars} (hpath : path ≠ [] ∧ isDot path = false) :
      Routable path .cells :=
    ⟨hpath.1, hpath.2, fun cellId h => by cases h⟩
  have husable : ∀ c ∈ twoNotebooks, c.Usable := by
    simp only [twoNotebooks, List.forall_mem_cons]
    exact ⟨⟨by decide, hcells (by decide), hid, htype⟩,
      ⟨by decide, hcells (by decide), hid, htype⟩,
      ⟨by decide, hcell (by decide) (by decide), hid, htype⟩,
      ⟨by decide, hcell (by decide) (by decide), hid, htype⟩, List.forall_mem_nil _⟩
  obtain ⟨results, s', hserved, hycells, hanswered, hedited⟩ :=
    clients_edit_documents (fun _ => none) plainHttpWeb_lawful
      (⟨fun _ => [], []⟩ : Workspace (YNotebook.ofCells Chars Unit (List String)))
      twoNotebooks husable
  have hlast : results[3]? = some _ := hanswered.2 (twoNotebooks.take 3) _ [] rfl
  refine ⟨results, s', hserved, ?_, ?_, ?_⟩
  · rw [hycells]
    decide
  · rw [hycells]
    decide
  · rw [hlast]
    decide

end Calls

end Hypernote
