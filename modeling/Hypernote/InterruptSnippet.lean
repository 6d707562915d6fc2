import Hypernote.Foundation.PyText
/-!
# The interrupt of a subshell

The message that `interrupt_subshell` sends: a request on the main shell to run a small program,
which raises `KeyboardInterrupt` in the thread that has the name of the subshell.
-/

namespace Hypernote

open Foundation

/-- An `execute_request`; `subshellId` is the one of its header. -/
structure ExecuteMessage where
  subshellId : Option Chars
  code : Chars
  silent : Bool
  storeHistory : Bool
  allowStdin : Bool
  stopOnError : Bool

namespace InterruptSnippet

/-- `f"subshell-{subshell_id}"`. -/
def targetName (subshellId : Chars) : Chars := "subshell-".toList ++ subshellId

def imports : List String :=
  ["import ctypes as _ctypes\n", "import os as _os\n", "import signal as _signal\n",
    "import threading as _threading\n"]

def raising : List String :=
  ["_target = next(\n",
    "    (_t for _t in _threading.enumerate() if _t.name == _target_name),\n",
    "    None,\n",
    ")\n",
    "_handled = False\n",
    "if _target is not None:\n",
    "    _rv = _ctypes.pythonapi.PyThreadState_SetAsyncExc(\n",
    "        _ctypes.c_ulong(_target.ident),\n",
    "        _ctypes.py_object(KeyboardInterrupt),\n",
    "    )\n",
    "    _handled = _rv == 1\n",
    "if not _handled:\n",
    "    _os.kill(_os.getpid(), _signal.SIGINT)\n"]

/-- The text of lines. -/
def text (lines : List String) : Chars := lines.flatMap String.toList

/-- `snippet`. -/
def snippet (printable : Char → Bool) (subshellId : Chars) : Chars :=
  text imports ++
    ("_target_name = ".toList ++ PyText.repr printable (targetName subshellId) ++ ['\n']) ++
    text raising

end InterruptSnippet

/-- The message of `interrupt_subshell`. -/
def interruptMessage (printable : Char → Bool) (subshellId : Chars) : ExecuteMessage where
  subshellId := none
  code := InterruptSnippet.snippet printable subshellId
  silent := true
  storeHistory := false
  allowStdin := false
  stopOnError := true

end Hypernote
