import ProcTrace.Register.Read
import ProcTrace.Seccomp.Read
import ProcTrace.Session.Wait
import ProcTrace.Tracee.Requests

/-!
# Properties that are inherited

All that is done with a tracee is put together from waits, requests and notes. A property of
attempts is inherited (`Attempt.Inherited`) if it holds of these, and of every sequence and every
loop whose parts it holds of. Then it holds of each thing that is put together in this way, and this
is said here once for all such properties. `Tracer.Inherited` does the same for the waits of a
session.
-/

namespace ProcTrace

/-- A request that finds no process when no reply is left is no wait. -/
theorem Request.ne_waitpid {request : Request} (h : request.lastErrno = .esrch) (pid : Pid) :
    request ≠ .waitpid pid := by
  rintro rfl
  have herrno : Errno.echild = .esrch := h
  exact absurd herrno (by decide)

namespace Attempt

/-- The property holds of the parts that attempts on the tracee `pid` are made of, and of what is
made of parts with the property. -/
structure Inherited (pid : Pid) (P : ∀ α : Type, Attempt α → Prop) : Prop where
  /-- Nothing is asked for a value that is known, or for an error that is. -/
  pure {α : Type} (a : α) : P α (pure a)
  throw {α : Type} (error : Error) : P α (throw error)
  /-- Only a session that is dropped logs a warning. -/
  note {record : Record} (h : record.level ≠ .warn) : P Unit (note record)
  /-- A request that finds no process when no reply is left, so it is no wait. -/
  ask {request : Request} (h : request.lastErrno = .esrch) : P Answer (ask pid request)
  command {request : Request} (h : request.lastErrno = .esrch) : P Unit (command pid request)
  /-- A wait is repeated within, so it is a part of its own. -/
  nextStop : P (Pid × StopReport) (nextStop pid)
  bind {α β : Type} {x : Attempt α} {f : α → Attempt β} (hx : P α x) (hf : ∀ a, P β (f a)) :
    P β (x >>= f)
  loop {α σ : Type} {step : σ → Attempt (α ⊕ σ)}
    {progress : ∀ state replies next, (step state replies).result = .ok (.inr next) →
      (step state replies).rest.length < replies.length}
    (h : ∀ state, P (α ⊕ σ) (step state)) (state : σ) : P α (loop step progress state)

namespace Inherited

variable {pid : Pid} {P : ∀ α : Type, Attempt α → Prop}

/-- What is done for each entry in turn has the property if it has for every one. -/
theorem forM {α : Type} {f : α → Attempt Unit} (h : Inherited pid P) (hf : ∀ a, P Unit (f a))
    (entries : List α) : P Unit (entries.forM f) := by
  induction entries with
  | nil => exact h.pure ()
  | cons a entries ih => exact h.bind (hf a) fun _ => ih

/-- A command that is logged first. -/
theorem note_command (h : Inherited pid P) {record : Record} (hrecord : record.level ≠ .warn)
    {request : Request} (hrequest : request.lastErrno = .esrch) :
    P Unit (Attempt.note record >>= fun _ => Attempt.command pid request) :=
  h.bind (h.note hrecord) fun _ => h.command hrequest

/-- A stop that is looked at while attaching, and restarted unless it is the attach-stop. -/
theorem passStop (h : Inherited pid P) (deferred : List Signal) :
    P (List Signal ⊕ List Signal) (passStop pid deferred) := by
  refine h.bind h.nextStop fun ⟨reporter, report⟩ => ?_
  have hlevel : (report.earlyNote pid reporter).level ≠ .warn := by
    cases report with
    | _ => simp [StopReport.earlyNote, Record.level]
  dsimp only
  split
  · exact h.pure _
  · exact h.bind (h.note hlevel) fun _ => h.bind (h.command rfl) fun _ => h.pure _

/-- A loop over the early stops, and then the signals that were kept. -/
theorem reachAttachStop (h : Inherited pid P) : P Unit (reachAttachStop pid) :=
  h.bind (h.loop h.passStop []) fun deferred => h.forM (fun _ => h.command rfl) deferred

/-! Each request about the tracee is a note and a command, or a question and what is made of its
answer. -/

theorem attach (h : Inherited pid P) : P Unit (Tracee.attach pid) :=
  h.note_command (by simp [Record.level]) rfl

theorem attachStopped (h : Inherited pid P) : P Unit (Tracee.attachStopped pid) :=
  h.bind h.attach fun _ => h.reachAttachStop

theorem detach (h : Inherited pid P) : P Unit (Tracee.detach pid) :=
  h.note_command (by simp [Record.level]) rfl

theorem setOptions (h : Inherited pid P) (options : TraceOptions) :
    P Unit (Tracee.setOptions pid options) :=
  h.note_command (by simp [Record.level]) rfl

theorem resume (h : Inherited pid P) (signal : Option Signal) :
    P Unit (Tracee.resume pid signal) :=
  h.note_command (by simp [Record.level]) rfl

theorem eventMessage (h : Inherited pid P) : P UInt64 (Tracee.eventMessage pid) :=
  h.bind (h.ask rfl) fun _ => h.pure _

/-- An image that is too short, or that does not hold the field, is an error without a request. -/
theorem readRegister (h : Inherited pid P) (field : RegisterField) :
    P UInt64 (field.read pid) := by
  refine h.bind (h.ask rfl) fun answer => h.bind (h.note (by simp [Record.level])) fun _ => ?_
  split
  · exact h.throw _
  · split
    · exact h.pure _
    · exact h.throw _

/-- The requests for a filter have an error of their own. -/
theorem readFilter (h : Inherited pid P) {index : Nat}
    (hask : ∀ capacity, P Answer (Attempt.askOr (SeccompFilter.readError pid index)
      (.seccompFilter pid index capacity))) : P SeccompFilter (SeccompFilter.read pid index) := by
  refine h.bind (hask none) fun counted => h.bind (h.note (by simp [Record.level])) fun _ =>
    h.bind (hask _) fun copied => ?_
  split
  · exact h.bind (h.note (by simp [Record.level])) fun _ => h.pure _
  · exact h.throw _

/-- What a stop means, if the origin of a signal can be asked for. -/
theorem interpretStop {s : Session} (h : Inherited s.pid P)
    (hprobe : ∀ signal, P Bool (stopsGroup s.pid signal)) (report : StopReport) :
    P (Stop × Bool) (s.interpretStop report) := by
  cases report with
  | signal signal =>
    refine h.bind (hprobe signal) fun group => ?_
    split
    · exact h.pure _
    · exact h.pure _
  | event signal code =>
    rw [Session.interpretStop]
    split
    · exact h.pure _
    · exact h.throw _
  | syscall =>
    rw [Session.interpretStop]
    split
    · exact h.pure _
    · exact h.pure _

/-- What a change means. An end means itself. -/
theorem interpret {s : Session} (h : Inherited s.pid P)
    (hprobe : ∀ signal, P Bool (stopsGroup s.pid signal)) (change : Change) :
    P (Stop × Bool) (s.interpret change) := by
  cases change with
  | stopped report => exact h.interpretStop hprobe report
  | ended ending => exact h.pure _

end Inherited

end Attempt

/-! ## Waits of a session -/

namespace Tracer

/-- The property holds of what makes no request, and of a sequence whose parts have it. -/
structure Inherited (P : ∀ α : Type, Tracer α → Prop) : Prop where
  pure {α : Type} (a : α) : P α (pure a)
  note {record : Record} (h : record.level ≠ .warn) : P Unit (note record)
  bind {α β : Type} {x : Tracer α} {f : α → Tracer β} (hx : P α x) (hf : ∀ a, P β (f a)) :
    P β (x >>= f)

namespace Inherited

variable {P : ∀ α : Type, Tracer α → Prop} {s : Session}

/-- A stop that was made out is noted, and one that was not leaves no note. -/
theorem record (h : Inherited P) (classified : Except Error (Stop × Bool)) :
    P (Except Error Stop × Session) (s.record classified) := by
  cases classified with
  | ok c => exact h.bind (h.note (by simp [Record.level])) fun _ => h.pure _
  | error error => exact h.pure _

/-- A wait of an attaching session. -/
theorem awaitAttachStop (h : Inherited P)
    (hreach : P (Except Error Unit) (reachAttachStop s.pid).run) :
    P (Except Error Stop × Session) s.awaitAttachStop := by
  refine h.bind hreach fun reached => ?_
  cases reached with
  | ok u => exact h.bind (h.note (by simp [Record.level])) fun _ => h.pure _
  | error error => exact h.pure _

/-- A wait of a running session. -/
theorem awaitChange (h : Inherited P)
    (hchange : P (Except Errno (Pid × Change)) (nextChange s.pid fun _ => []))
    (hinterpret : ∀ change, P (Except Error (Stop × Bool)) (s.interpret change).run) :
    P (Except Error Stop × Session) s.awaitChange := by
  refine h.bind hchange fun changed => ?_
  cases changed with
  | ok reported =>
    obtain ⟨reporter, change⟩ := reported
    exact h.bind (hinterpret change) h.record
  | error errno => exact h.pure _

/-- A wait has what its parts have. -/
theorem wait (h : Inherited P) (hreach : P (Except Error Unit) (reachAttachStop s.pid).run)
    (hchange : P (Except Errno (Pid × Change)) (nextChange s.pid fun _ => []))
    (hinterpret : ∀ change, P (Except Error (Stop × Bool)) (s.interpret change).run) :
    P (Except Error Stop × Session) s.wait := by
  unfold Session.wait
  split
  · exact h.awaitAttachStop hreach
  · exact h.awaitChange hchange hinterpret
  · exact h.pure _

end Inherited

end Tracer

end ProcTrace
