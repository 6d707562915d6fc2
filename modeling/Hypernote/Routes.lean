import Hypernote.Foundation.UrlPattern
import Hypernote.Urls
/-!
# The routes of the extension

The URL patterns that `initialize_handlers` registers, and the requests of the SDK to them.
-/

namespace Hypernote

open Foundation

inductive ApiHandler
  | serverDiagnostics
  | notebook (handler : Handler)
  | jobs
  | job
  | sendStdin
  deriving DecidableEq

/-- `/hypernote/api` and what follows. -/
def apiPattern (pieces : List UrlPiece) : List UrlPiece :=
  .word "hypernote".toList :: .word "api".toList :: pieces

/-- `/hypernote/api/notebooks/(?P<notebook_id>.+)` and what follows. -/
def notebookPattern (pieces : List UrlPiece) : List UrlPiece :=
  apiPattern (.word "notebooks".toList :: .path :: pieces)

/-- The patterns of `initialize_handlers`, in their order. -/
def urlPatterns : List (List UrlPiece × ApiHandler) :=
  [(apiPattern [.word "diagnostics".toList], .serverDiagnostics),
    (notebookPattern [.word "document".toList], .notebook .notebookDocument),
    (notebookPattern [.word "cells".toList], .notebook .notebookCells),
    (notebookPattern [.word "cells".toList, .segment], .notebook .notebookCell),
    (notebookPattern [.word "cells".toList, .segment, .word "move".toList],
      .notebook .notebookCellMove),
    (notebookPattern [.word "cells".toList, .segment, .word "clear-outputs".toList],
      .notebook .notebookCellClearOutputs),
    (notebookPattern [.word "execute".toList], .notebook .execute),
    (apiPattern [.word "jobs".toList], .jobs),
    (apiPattern [.word "jobs".toList, .segment], .job),
    (apiPattern [.word "jobs".toList, .segment, .word "stdin".toList], .sendStdin),
    (notebookPattern [.word "runtime".toList], .notebook .runtimeStatus),
    (notebookPattern [.word "runtime".toList, .word "open".toList], .notebook .runtimeOpen),
    (notebookPattern [.word "runtime".toList, .word "stop".toList], .notebook .runtimeStop),
    (notebookPattern [.word "interrupt".toList], .notebook .interrupt),
    (notebookPattern [.word "cells".toList, .segment, .word "attribution".toList],
      .notebook .cellAttribution)]

/-- The handler of the first pattern that matches, and its groups. -/
def firstMatch (url : Chars) : Option (ApiHandler × List Chars) :=
  urlPatterns.findSome? fun route =>
    (UrlPattern.matchUrl route.1 url).map fun groups => (route.2, groups)

/-! ## The requests of the SDK -/

/-- The requests of the SDK to the extension. -/
inductive ApiRequest
  | notebook (request : NotebookRequest)
  | diagnostics
  | listJobs
  | job (jobId : Chars)
  | stdin (jobId : Chars)

namespace ApiRequest

/-- The segments of the path that the SDK puts together, for a notebook path. -/
def segments (path : Chars) : ApiRequest → List Chars
  | .notebook request => requestPath path request
  | .diagnostics => ["hypernote".toList, "api".toList, "diagnostics".toList]
  | .listJobs => ["hypernote".toList, "api".toList, "jobs".toList]
  | .job jobId => ["hypernote".toList, "api".toList, "jobs".toList, jobId]
  | .stdin jobId => ["hypernote".toList, "api".toList, "jobs".toList, jobId, "stdin".toList]

end ApiRequest

end Hypernote
