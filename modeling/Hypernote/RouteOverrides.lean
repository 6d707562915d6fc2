import Hypernote.Foundation.PyText
import Hypernote.Foundation.UrlPattern
/-!
# The overridden routes of the kernels

The rules that `_install_interrupt_intercept` puts before those of the server, and the check of
`_verify_route_overrides`.  The other rules are those that the server has, whatever they are.
-/

namespace Hypernote

open Foundation

/-- What a rule hands a request to. -/
inductive RuleTarget (η : Type)
  | kernelInterruptIntercept
  | kernelRestartIntercept
  | other (handler : η)
  deriving DecidableEq

/-- A rule of `wildcard_router`, for the requests to one host. -/
structure RouterRule (η : Type) where
  /-- `rule.matcher` has a `regex`. -/
  hasRegex : Bool
  /-- The groups with which the matcher matches a path. -/
  matches? : Chars → Option (List Chars)
  target : RuleTarget η

namespace RouteOverrides

variable {η : Type}

/-- The router hands a request to the first rule that matches. -/
def dispatch (rules : List (RouterRule η)) (path : Chars) : Option (RuleTarget η × List Chars) :=
  rules.findSome? fun rule => (rule.matches? path).map fun groups => (rule.target, groups)

/-- `/api/kernels/(?P<kernel_id>[^/]+)` and what follows. -/
def kernelPattern (action : Chars) : List UrlPiece :=
  [.word "api".toList, .word "kernels".toList, .segment, .word action]

/-- A `URLSpec` of the pattern. -/
def urlSpec (action : Chars) (target : RuleTarget η) : RouterRule η :=
  ⟨true, UrlPattern.matchUrl (kernelPattern action), target⟩

/-- `rules` of `_install_interrupt_intercept`. -/
def overrides : List (RouterRule η) :=
  [urlSpec "interrupt".toList .kernelInterruptIntercept,
    urlSpec "restart".toList .kernelRestartIntercept]

/-- `_install_interrupt_intercept`, up to its check: each rule is inserted at index 0. -/
def install (rules : List (RouterRule η)) : List (RouterRule η) :=
  overrides.foldl (fun rules rule => rule :: rules) rules

/-- `_first_matching_handler`. -/
def firstMatchingHandler (rules : List (RouterRule η)) (path : Chars) : Option (RuleTarget η) :=
  (rules.find? fun rule => rule.hasRegex && (rule.matches? path).isSome).map (·.target)

def probes : List (Chars × RuleTarget η) :=
  [("/api/kernels/test-kernel-probe/interrupt".toList, .kernelInterruptIntercept),
    ("/api/kernels/test-kernel-probe/restart".toList, .kernelRestartIntercept)]

/-- `_verify_route_overrides`: the probes of which it warns, and what it has got for them. -/
def verifyRouteOverrides [DecidableEq η] (rules : List (RouterRule η)) :
    List (Chars × Option (RuleTarget η)) :=
  (probes.filter fun probe => firstMatchingHandler rules probe.1 ≠ some probe.2).map fun probe =>
    (probe.1, firstMatchingHandler rules probe.1)

end RouteOverrides

end Hypernote
