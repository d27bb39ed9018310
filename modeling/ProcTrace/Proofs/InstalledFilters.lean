import ProcTrace.InstalledFilters
import ProcTrace.Proofs.Session.Guards
import ProcTrace.Proofs.Session.Lifetime

/-!
# A process whose filters were read is let go

To read the filters of a process is to attach to it, to wait for its attach-stop, to read and to
detach. It is detached whether or not the filters could be read, and what is reported is the first
thing that went wrong (`installedFilters_of_stopped`). If the attach-stop is not seen, no filter is
asked for, and all that follows is the end of the session (`installedFilters_of_error`).
`detached_on_every_path` puts the paths together.
-/

namespace ProcTrace

/-- Only the last entry of a list has none that comes later. -/
theorem exists_later_of_mem_dropLast {α : Type} {later : α → α → Prop} {entries : List α}
    (h : entries.Pairwise later) {entry : α} (hentry : entry ∈ entries.dropLast) :
    ∃ other, later entry other := by
  have hne : entries ≠ [] := by
    rintro rfl
    cases hentry
  rw [← List.dropLast_concat_getLast hne] at h
  exact ⟨_, (List.pairwise_append.1 h).2.2 entry hentry _ (List.mem_singleton_self _)⟩

namespace Session

variable {pid : Pid} {replies : List Reply}

/-! ## Attaching -/

theorem attachStopped_of_error {error : Error}
    (h : (Tracee.attach pid replies).result = .error error) :
    attachStopped pid replies = (Tracee.attach pid replies).withResult (.error error) := by
  have hattach : attach pid replies = (Tracee.attach pid replies).withResult (.error error) :=
    Attempt.bind_of_error h
  have hresult : (attach pid replies).result = .error error := by rw [hattach]; rfl
  rw [attachStopped, Attempt.bind_of_error hresult, hattach]
  rfl

theorem attachStopped_of_ok (h : (Tracee.attach pid replies).result = .ok ()) :
    let attached := Tracee.attach pid replies
    attachStopped pid replies =
      (attached.followedBy (adopt pid attached.rest)).followedBy
        ((attaching pid).waitOrDrop attached.rest) := by
  intro attached
  have hattach : attach pid replies = attached.followedBy (adopt pid attached.rest) :=
    Attempt.bind_of_ok h
  have hresult : (attach pid replies).result = .ok (attaching pid) := by rw [hattach]; rfl
  rw [attachStopped, Attempt.bind_of_ok hresult, hattach]
  rfl

/-- Once it has attached, the session is handed over if its wait succeeds. -/
theorem attachStopped_of_stop (h : (Tracee.attach pid replies).result = .ok ()) {stop : Stop}
    (hstop : ((attaching pid).wait (Tracee.attach pid replies).rest).result.1 = .ok stop) :
    let attached := Tracee.attach pid replies
    let waited := (attaching pid).wait attached.rest
    (attachStopped pid replies).calls = attached.calls ++ waited.calls ∧
      (attachStopped pid replies).result = .ok waited.result.2 ∧
      (attachStopped pid replies).rest = waited.rest := by
  intro attached waited
  rw [attachStopped_of_ok h, waitOrDrop_of_ok hstop]
  exact ⟨congrArg (· ++ waited.calls) (List.append_nil attached.calls), rfl, rfl⟩

/-- It is dropped if its wait fails. -/
theorem attachStopped_of_missed (h : (Tracee.attach pid replies).result = .ok ()) {error : Error}
    (hmissed : ((attaching pid).wait (Tracee.attach pid replies).rest).result.1 = .error error) :
    let attached := Tracee.attach pid replies
    let waited := (attaching pid).wait attached.rest
    (attachStopped pid replies).calls =
        attached.calls ++ waited.calls ++ (waited.result.2.drop waited.rest).calls ∧
      (attachStopped pid replies).result = .error error := by
  intro attached waited
  rw [attachStopped_of_ok h, waitOrDrop_of_error hmissed, List.append_assoc]
  exact ⟨congrArg (· ++ (waited.calls ++ _)) (List.append_nil attached.calls), rfl⟩

/-- An attaching session is stopped after a wait that succeeds. -/
theorem stopped_of_wait_attaching {s : Session} (hs : s.state = .attaching) {stop : Stop}
    (h : (s.wait replies).result.1 = .ok stop) :
    (s.wait replies).result.2.state = .stopped := by
  rcases wait_attaching_cases hs replies with ⟨_, hr⟩ | ⟨error, _, hr⟩
  · rw [hr]
  · rw [hr] at h
    cases h

/-- The session that `attachStopped` hands over is stopped. -/
theorem stopped_of_attachStopped {s : Session} (h : (attachStopped pid replies).result = .ok s) :
    s.state = .stopped ∧ s.pid = pid := by
  have hperform : (Opening.attachStopped.perform pid replies).result = .ok s := h
  rcases begun_or_waited_of_perform hperform with ⟨hwaits, _⟩ | ⟨_, stop, hwaited⟩
  · cases hwaits
  · obtain rfl : _ = s := congrArg Prod.snd hwaited
    exact ⟨stopped_of_wait_attaching rfl (congrArg Prod.fst hwaited), (step_wait _ _).pid⟩

/-- A session that has lost its tracee is dropped without a call. -/
theorem calls_drop_of_traceeGone {s : Session} (hs : s.state = .attaching) {error : Error}
    (h : (s.wait replies).result.1 = .error error) (hgone : error.traceeGone = true)
    (more : List Reply) : ((s.wait replies).result.2.drop more).calls = [] := by
  refine (dropped_drop _ _).eq_nil ?_
  rcases wait_attaching_cases hs replies with ⟨_, hr⟩ | ⟨failure, _, hr⟩
  · rw [hr] at h
    cases h
  · rw [hr] at h
    obtain rfl := Except.error.inj h
    rw [hr, state_afterFailedAttach, if_pos hgone]

end Session

/-! ## Reading and detaching -/

/-- The filters that were read, unless reading them has failed, or else detaching. -/
def firstError : Except Error (List SeccompFilter) → Except Error Unit →
    Except Error (List SeccompFilter)
  | .error error, _ => .error error
  | .ok _, .error error => .error error
  | .ok filters, .ok () => .ok filters

theorem reportFilters_apply (pid : Pid) (filters : Except Error (List SeccompFilter))
    (detached : Except Error Unit) (replies : List Reply) :
    (reportFilters pid filters detached replies).calls = [] ∧
      (reportFilters pid filters detached replies).result = firstError filters detached := by
  cases filters with
  | error error => exact ⟨rfl, rfl⟩
  | ok filters =>
    cases detached with
    | error error => exact ⟨rfl, rfl⟩
    | ok u => exact ⟨rfl, rfl⟩

/-- Once the tracee is stopped, its filters are read and it is detached, whether or not they could
be read. If both have failed, the error is that of reading. -/
theorem installedFilters_of_stopped {pid : Pid} (limit : Option Nat) {replies : List Reply}
    {s : Session} (h : (Session.attachStopped pid replies).result = .ok s)
    (hs : s.state = .stopped) (hpid : s.pid = pid) :
    let opened := Session.attachStopped pid replies
    let reading := SeccompFilter.readAll pid limit opened.rest
    let detached := Tracee.detach pid reading.rest
    (installedFilters pid limit replies).calls =
        opened.calls ++ (reading.calls ++ detached.calls) ∧
      (installedFilters pid limit replies).result = firstError reading.result detached.result := by
  intro opened reading detached
  have hfilters : s.filters limit = SeccompFilter.readAll pid limit := by
    rw [Session.filters, Session.whenStopped_of_stopped hs, hpid]
  have hdetach : s.detach = Tracee.detach pid := by rw [Session.detach, if_pos hs, hpid]
  obtain ⟨hcalls, hresult⟩ :=
    reportFilters_apply pid reading.result detached.result detached.rest
  have hread : (s.filters limit).outcome opened.rest =
      reading.withResult (.ok reading.result) := by
    rw [hfilters]
    rfl
  have hleft : s.detach.outcome reading.rest = detached.withResult (.ok detached.result) := by
    rw [hdetach]
    rfl
  have hreading := congrArg Exchange.result hread
  have hdetaching := congrArg Exchange.result hleft
  rw [installedFilters, Attempt.bind_of_ok h, Attempt.bind_of_ok hreading, hread,
    Exchange.rest_withResult, Attempt.bind_of_ok hdetaching, hleft]
  refine ⟨?_, hresult⟩
  simp only [Exchange.calls_followedBy, Exchange.calls_withResult, Exchange.rest_withResult,
    hcalls, List.append_nil]
  rfl

/-- If the session is not handed over, that is all. -/
theorem installedFilters_of_error {pid : Pid} (limit : Option Nat) {replies : List Reply}
    {error : Error} (h : (Session.attachStopped pid replies).result = .error error) :
    (installedFilters pid limit replies).calls = (Session.attachStopped pid replies).calls ∧
      (installedFilters pid limit replies).result = .error error := by
  rw [installedFilters, Attempt.bind_of_error h]
  exact ⟨rfl, rfl⟩

/-- On every path a request to detach is the last call. -/
theorem installedFilters_detaches_last (pid : Pid) (limit : Option Nat) (replies : List Reply) :
    (installedFilters pid limit replies).calls.Pairwise fun call _ => call.detaches = false := by
  rcases Opening.attachStopped.perform_cases pid replies with ⟨s, hs, hopened⟩ | ⟨_, he, hopened⟩
  · obtain ⟨hstopped, hpid⟩ := Session.stopped_of_attachStopped hs
    rw [(installedFilters_of_stopped limit hs hstopped hpid).1]
    obtain ⟨reply, hdetach⟩ :=
      Session.exists_calls_detach pid (SeccompFilter.readAll pid limit _).rest
    have hreading : (SeccompFilter.readAll pid limit).Asks fun request =>
        ∃ index capacity, request = .seccompFilter pid index capacity :=
      SeccompFilter.asks_readAll pid limit fun index capacity => ⟨index, capacity, rfl⟩
    rw [hdetach, ← List.append_assoc, List.pairwise_append]
    have hbefore (call : Call) (hcall : call ∈ (Session.attachStopped pid replies).calls ++
        (SeccompFilter.readAll pid limit (Session.attachStopped pid replies).rest).calls) :
        call.detaches = false := by
      rcases List.mem_append.1 hcall with hcall | hcall
      · exact hopened.undetached call hcall
      · obtain ⟨index, capacity, hrequest⟩ := hreading _ call hcall
        exact Call.detaches_eq_false fun _ _ => by simp [hrequest]
    exact ⟨List.pairwise_of_forall_mem_list fun call hcall _ _ => hbefore call hcall,
      List.pairwise_singleton _ _, fun call hcall _ _ => hbefore call hcall⟩
  · rw [(installedFilters_of_error limit he).1]
    exact hopened.imp fun h => h.1

/-- No filter is asked for while a session opens. -/
theorem Session.no_filter_of_attachStopped {pid : Pid} {replies : List Reply} {call : Call}
    (hcall : call ∈ (Session.attachStopped pid replies).calls) (target : Pid) (index : Nat)
    (capacity : Option Nat) : call.request ≠ .seccompFilter target index capacity := by
  intro hrequest
  have hneeds : call.request.needsStop = false :=
    Opening.attachStopped.asks_perform pid replies call hcall
  rw [hrequest] at hneeds
  cases hneeds

/-- However the reading of a process's filters ends, the process is let go if it can be, and the
first failure is reported. Attaching is one call, and if that fails there is nothing else. If the
attach-stop is seen, the filters are read and the process is detached once, whatever came of the
reading. If it is not, no filter is asked for and the session is dropped. Nothing follows a request
to detach. -/
theorem detached_on_every_path (pid : Pid) (limit : Option Nat) (replies : List Reply) :
    let dumped := installedFilters pid limit replies
    let attached := Tracee.attach pid replies
    let waited := (Session.attaching pid).wait attached.rest
    let reading := SeccompFilter.readAll pid limit waited.rest
    let detached := Tracee.detach pid reading.rest
    let dropped := waited.result.2.drop waited.rest
    (match attached.result, waited.result.1 with
      | .error error, _ =>
        dumped.result = .error error ∧ ∃ errno, error = .ofErrno pid errno ∧
          dumped.calls = [⟨.attach pid, .error errno⟩]
      | .ok (), .ok _ =>
        (∃ answer, attached.calls = [⟨.attach pid, .ok answer⟩]) ∧
          dumped.calls = attached.calls ++ waited.calls ++ reading.calls ++ detached.calls ∧
          (∃ reply, detached.calls = [⟨.detach pid none, reply⟩]) ∧
          dumped.result = firstError reading.result detached.result
      | .ok (), .error error =>
        dumped.result = .error error ∧ (∃ answer, attached.calls = [⟨.attach pid, .ok answer⟩]) ∧
          dumped.calls = attached.calls ++ waited.calls ++ dropped.calls ∧
          (∀ call ∈ dumped.calls, ∀ target index capacity,
            call.request ≠ .seccompFilter target index capacity) ∧
          (error.traceeGone = true → dropped.calls = [])) ∧
      ∀ call ∈ dumped.calls.dropLast, call.detaches = false := by
  intro dumped attached waited reading detached dropped
  refine ⟨?_, fun call hcall => ?_⟩
  · rcases Attempt.note_command_cases (.attaching pid) pid (.attach pid) replies with
      ⟨answer, hattach, hattached⟩ | ⟨errno, hattach, hattached⟩
    · replace hattach : attached.calls = [⟨.attach pid, .ok answer⟩] := hattach
      replace hattached : attached.result = .ok () := hattached
      cases hwaited : waited.result.1 with
      | ok stop =>
        obtain ⟨hopened, hs, hrest⟩ := Session.attachStopped_of_stop hattached hwaited
        obtain ⟨hstopped, hpid⟩ := Session.stopped_of_attachStopped hs
        obtain ⟨hcalls, hresult⟩ := installedFilters_of_stopped limit hs hstopped hpid
        rw [hrest] at hcalls hresult
        rw [hopened, ← List.append_assoc] at hcalls
        rw [hattached]
        exact ⟨⟨answer, hattach⟩, hcalls, Session.exists_calls_detach pid _, hresult⟩
      | error error =>
        obtain ⟨hopened, herror⟩ := Session.attachStopped_of_missed hattached hwaited
        obtain ⟨hcalls, hresult⟩ := installedFilters_of_error limit herror
        rw [hattached]
        refine ⟨hresult, ⟨answer, hattach⟩, hcalls.trans hopened, fun call hcall => ?_,
          fun hgone => ?_⟩
        · exact Session.no_filter_of_attachStopped (hcalls ▸ hcall)
        · exact Session.calls_drop_of_traceeGone rfl hwaited hgone _
    · replace hattached : attached.result = .error (.ofErrno pid errno) := hattached
      have hopened := Session.attachStopped_of_error hattached
      obtain ⟨hcalls, hresult⟩ := installedFilters_of_error limit (congrArg Exchange.result hopened)
      rw [hattached]
      exact ⟨hresult, errno, rfl, hcalls.trans ((congrArg Exchange.calls hopened).trans hattach)⟩
  · obtain ⟨_, hundetached⟩ :=
      exists_later_of_mem_dropLast (installedFilters_detaches_last pid limit replies) hcall
    exact hundetached

/-- Neither the filters can be read nor the process be let go : the error is that of reading. -/
example :
    let dumped := installedFilters ⟨5⟩ none
      [.ok {}, .ok { status := 0x137f }, .error .eperm, .error .esrch]
    (match dumped.result with
      | .error error => some error
      | .ok _ => none) = some (.notPermitted ⟨5⟩ .eperm) ∧
      dumped.calls.getLast?.map Call.request = some (.detach ⟨5⟩ none) := by
  decide +kernel

end ProcTrace
