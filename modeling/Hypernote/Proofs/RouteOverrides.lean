import Hypernote.RouteOverrides
/-!
# What the overridden routes take

The two rules take the paths of the kernels at the root of the server and no others, whatever rules
the server has.  The check that follows looks at the rules that have just been put in front, so it
never warns: also where the server has a base URL and no request of its kernels is overridden.
-/

namespace Hypernote.RouteOverrides

open Foundation UrlPattern

variable {η : Type}

/-- `/api/kernels/{kernel_id}/{action}`. -/
def kernelPath (kernelId action : Chars) : Chars :=
  urlPath ["api".toList, "kernels".toList, kernelId, action]

/-- Something that a segment of a path can be. -/
def IsSegment (s : Chars) : Prop := s ≠ [] ∧ '/' ∉ s

theorem isSimple_kernelPattern {action : Chars} (h : '/' ∉ action) :
    isSimple (kernelPattern action) = true := by
  have hlast : isSimple [.word action] = true := by simp [isSimple, h]
  exact hlast

/-- The pattern matches four segments: the fixed ones, and a kernel that is not empty. -/
theorem matchSegments_kernelPattern {action : Chars} {segments groups : List Chars} :
    matchSegments (kernelPattern action) segments = some groups ↔
      ∃ kernelId, kernelId ≠ [] ∧ groups = [kernelId] ∧
        segments = ["api".toList, "kernels".toList, kernelId, action] := by
  simp only [kernelPattern, matchSegments_word_iff, matchSegments_segment_iff,
    matchSegments_nil_iff]
  constructor
  · rintro ⟨_, rfl, _, rfl, kernelId, _, _, rfl, hne, rfl, _, rfl, rfl, rfl⟩
    exact ⟨kernelId, hne, rfl, rfl⟩
  · rintro ⟨kernelId, hne, rfl, rfl⟩
    exact ⟨_, rfl, _, rfl, kernelId, _, _, rfl, hne, rfl, _, rfl, rfl, rfl⟩

/-- The pattern matches the paths of the kernels with its action. -/
theorem matchUrl_kernelPattern {action path : Chars} (haction : '/' ∉ action)
    {groups : List Chars} :
    matchUrl (kernelPattern action) path = some groups ↔
      ∃ kernelId, IsSegment kernelId ∧ path = kernelPath kernelId action ∧
        groups = [kernelId] := by
  have hsimple := isSimple_kernelPattern haction
  constructor
  · intro h
    obtain ⟨segments, hsegments, rfl⟩ := (matches_of_matchUrl h).exists_urlPath
    rw [matchUrl_urlPath hsimple hsegments, matchSegments_kernelPattern] at h
    obtain ⟨kernelId, hne, rfl, rfl⟩ := h
    exact ⟨kernelId, ⟨hne, hsegments kernelId (by simp)⟩, rfl, rfl⟩
  · rintro ⟨kernelId, hk, rfl, rfl⟩
    have hsegments : Slashless ["api".toList, "kernels".toList, kernelId, action] := by
      simp only [Slashless, List.forall_mem_cons]
      exact ⟨by decide, by decide, hk.2, haction, List.forall_mem_nil _⟩
    rw [kernelPath, matchUrl_urlPath hsimple hsegments, matchSegments_kernelPattern]
    exact ⟨kernelId, hk.1, rfl, rfl⟩

theorem kernelPath_inj {kernelId kernelId' action action' : Chars}
    (h : kernelPath kernelId action = kernelPath kernelId' action') (hk : '/' ∉ kernelId)
    (hk' : '/' ∉ kernelId') (haction : '/' ∉ action) (haction' : '/' ∉ action') :
    kernelId = kernelId' ∧ action = action' := by
  have hslashless {k a : Chars} (hk : '/' ∉ k) (ha : '/' ∉ a) :
      Slashless ["api".toList, "kernels".toList, k, a] := by
    simp only [Slashless, List.forall_mem_cons]
    exact ⟨by decide, by decide, hk, ha, List.forall_mem_nil _⟩
  have hsegments := urlPath_injective (hslashless hk haction) (hslashless hk' haction') h
  simp only [List.cons.injEq, true_and, and_true] at hsegments
  exact hsegments

theorem matchUrl_other_action {kernelId action action' : Chars} (hk : IsSegment kernelId)
    (haction : '/' ∉ action) (haction' : '/' ∉ action') (hne : action' ≠ action) :
    matchUrl (kernelPattern action) (kernelPath kernelId action') = none := by
  apply Option.eq_none_iff_forall_ne_some.mpr
  intro groups h
  obtain ⟨kernelId', hk', hpath, -⟩ := (matchUrl_kernelPattern haction).mp h
  exact hne (kernelPath_inj hpath hk.2 hk'.2 haction' haction).2

/-! ## The router -/

theorem dispatch_cons (rule : RouterRule η) (rules : List (RouterRule η)) (path : Chars) :
    dispatch (rule :: rules) path =
      ((rule.matches? path).map fun groups => (rule.target, groups)).or (dispatch rules path) := by
  rw [dispatch, List.findSome?_cons]
  cases rule.matches? path <;> rfl

theorem dispatch_urlSpec (action : Chars) (target : RuleTarget η) (rules : List (RouterRule η))
    (path : Chars) :
    dispatch (urlSpec action target :: rules) path =
      ((matchUrl (kernelPattern action) path).map fun groups => (target, groups)).or
        (dispatch rules path) :=
  dispatch_cons (urlSpec action target) rules path

theorem firstMatchingHandler_cons (rule : RouterRule η) (rules : List (RouterRule η))
    (path : Chars) :
    firstMatchingHandler (rule :: rules) path =
      if rule.hasRegex && (rule.matches? path).isSome then some rule.target
      else firstMatchingHandler rules path := by
  rw [firstMatchingHandler, List.find?_cons]
  cases rule.hasRegex && (rule.matches? path).isSome <;> rfl

theorem firstMatchingHandler_urlSpec (action : Chars) (target : RuleTarget η)
    (rules : List (RouterRule η)) (path : Chars) :
    firstMatchingHandler (urlSpec action target :: rules) path =
      if (matchUrl (kernelPattern action) path).isSome then some target
      else firstMatchingHandler rules path :=
  firstMatchingHandler_cons (urlSpec action target) rules path

theorem install_eq (rules : List (RouterRule η)) :
    install rules = urlSpec "restart".toList .kernelRestartIntercept ::
      urlSpec "interrupt".toList .kernelInterruptIntercept :: rules := rfl

theorem dispatch_interrupt (rules : List (RouterRule η)) {kernelId : Chars}
    (hk : IsSegment kernelId) :
    dispatch (install rules) (kernelPath kernelId "interrupt".toList) =
      some (.kernelInterruptIntercept, [kernelId]) := by
  have hrestart : matchUrl (kernelPattern "restart".toList)
      (kernelPath kernelId "interrupt".toList) = none :=
    matchUrl_other_action hk (by decide) (by decide) (by decide)
  have hinterrupt : matchUrl (kernelPattern "interrupt".toList)
      (kernelPath kernelId "interrupt".toList) = some [kernelId] :=
    (matchUrl_kernelPattern (by decide)).mpr ⟨kernelId, hk, rfl, rfl⟩
  rw [install_eq, dispatch_urlSpec, dispatch_urlSpec, hrestart, hinterrupt]
  rfl

theorem dispatch_restart (rules : List (RouterRule η)) {kernelId : Chars}
    (hk : IsSegment kernelId) :
    dispatch (install rules) (kernelPath kernelId "restart".toList) =
      some (.kernelRestartIntercept, [kernelId]) := by
  have hrestart : matchUrl (kernelPattern "restart".toList)
      (kernelPath kernelId "restart".toList) = some [kernelId] :=
    (matchUrl_kernelPattern (by decide)).mpr ⟨kernelId, hk, rfl, rfl⟩
  rw [install_eq, dispatch_urlSpec, hrestart]
  rfl

/-- A path that is none of the two of any kernel. -/
def IsOther (path : Chars) : Prop :=
  ∀ kernelId, IsSegment kernelId → path ≠ kernelPath kernelId "interrupt".toList ∧
    path ≠ kernelPath kernelId "restart".toList

theorem dispatch_other (rules : List (RouterRule η)) {path : Chars} (h : IsOther path) :
    dispatch (install rules) path = dispatch rules path := by
  have hnone {action : Chars} (haction : '/' ∉ action)
      (h : ∀ kernelId, IsSegment kernelId → path ≠ kernelPath kernelId action) :
      matchUrl (kernelPattern action) path = none := by
    apply Option.eq_none_iff_forall_ne_some.mpr
    intro groups hmatch
    obtain ⟨kernelId, hk, hpath, -⟩ := (matchUrl_kernelPattern haction).mp hmatch
    exact h kernelId hk hpath
  rw [install_eq, dispatch_urlSpec, dispatch_urlSpec,
    hnone (by decide) fun kernelId hk => (h kernelId hk).2,
    hnone (by decide) fun kernelId hk => (h kernelId hk).1]
  rfl

theorem count_kernelPath (kernelId action : Chars) :
    (kernelPath kernelId action).count '/' = 4 + kernelId.count '/' + action.count '/' := by
  simp only [kernelPath, urlPath_cons, urlPath_nil, List.count_cons, List.count_append,
    List.count_nil]
  have hapi : ("api".toList).count '/' = 0 := by decide
  have hkernels : ("kernels".toList).count '/' = 0 := by decide
  rw [hapi, hkernels]
  simp only [beq_self_eq_true, if_true]
  omega

/-- Under a base URL no path is overridden. -/
theorem isOther_base {base : Chars} (hbase : base ≠ []) (kernelId action : Chars) :
    IsOther (base ++ kernelPath kernelId action) := by
  have hne (kernelId' action' : Chars) (hk' : '/' ∉ kernelId') (ha' : '/' ∉ action') :
      base ++ kernelPath kernelId action ≠ kernelPath kernelId' action' := by
    intro h
    obtain ⟨c, rest, rfl⟩ := List.exists_cons_of_ne_nil hbase
    have hslash : c = '/' := (List.cons.inj h).1
    have hcount := congrArg (List.count '/') h
    rw [List.count_append, count_kernelPath, count_kernelPath, hslash, List.count_cons_self,
      List.count_eq_zero.mpr hk', List.count_eq_zero.mpr ha'] at hcount
    omega
  exact fun kernelId' hk' => ⟨hne kernelId' _ hk'.2 (by decide), hne kernelId' _ hk'.2 (by decide)⟩

/-- The check finds the rules that have been inserted. -/
theorem verifyRouteOverrides_install [DecidableEq η] (rules : List (RouterRule η)) :
    verifyRouteOverrides (install rules) = [] := by
  have hprobe : IsSegment "test-kernel-probe".toList := ⟨by decide, by decide⟩
  have hinterrupt : firstMatchingHandler (install rules)
      "/api/kernels/test-kernel-probe/interrupt".toList = some .kernelInterruptIntercept := by
    have hpath : "/api/kernels/test-kernel-probe/interrupt".toList =
        kernelPath "test-kernel-probe".toList "interrupt".toList := by decide
    rw [hpath, install_eq, firstMatchingHandler_urlSpec,
      matchUrl_other_action hprobe (by decide) (by decide) (by decide),
      firstMatchingHandler_urlSpec, (matchUrl_kernelPattern (by decide)).mpr ⟨_, hprobe, rfl, rfl⟩]
    rfl
  have hrestart : firstMatchingHandler (install rules)
      "/api/kernels/test-kernel-probe/restart".toList = some .kernelRestartIntercept := by
    have hpath : "/api/kernels/test-kernel-probe/restart".toList =
        kernelPath "test-kernel-probe".toList "restart".toList := by decide
    rw [hpath, install_eq, firstMatchingHandler_urlSpec,
      (matchUrl_kernelPattern (by decide)).mpr ⟨_, hprobe, rfl, rfl⟩]
    rfl
  rw [verifyRouteOverrides, List.map_eq_nil_iff, List.filter_eq_nil_iff, probes]
  simp only [List.forall_mem_cons, hinterrupt, hrestart]
  exact ⟨by simp, by simp, List.forall_mem_nil _⟩

/-- Whatever rules the server has: the requests to interrupt or to restart a kernel at its root are
handed to the handlers of the extension with the id of the kernel, and all other requests are handed
on as before, among them all requests of the kernels under a base URL; the check never warns. -/
theorem overrides_take_root_paths [DecidableEq η] (rules : List (RouterRule η)) :
    (∀ kernelId, IsSegment kernelId →
      dispatch (install rules) (kernelPath kernelId "interrupt".toList) =
          some (.kernelInterruptIntercept, [kernelId]) ∧
        dispatch (install rules) (kernelPath kernelId "restart".toList) =
          some (.kernelRestartIntercept, [kernelId])) ∧
      (∀ path, IsOther path → dispatch (install rules) path = dispatch rules path) ∧
      (∀ base kernelId action : Chars, base ≠ [] → IsOther (base ++ kernelPath kernelId action)) ∧
      verifyRouteOverrides (install rules) = [] :=
  ⟨fun _ hk => ⟨dispatch_interrupt rules hk, dispatch_restart rules hk⟩,
    fun _ h => dispatch_other rules h,
    fun _ kernelId action hbase => isOther_base hbase kernelId action,
    verifyRouteOverrides_install rules⟩

end Hypernote.RouteOverrides
