import Mathlib.Data.List.Perm.Basic
import Rapidly.FileSharing.Uploader.Stretches

/-!
# One send loop at a time

The chunks of a connection should come from one send loop: after a `Start` for a file and an
offset is taken up, the chunks sent are those of that file from that offset on, each where
the previous one ended, until the file is over or the next `Start` is taken up.

A send loop owes the peer a chunk, its `pendingChunk`, from the moment it is scheduled until
its final chunk is out. The handlers never add a loop except in `Start`, and a loop never
owes more than the chunk after the one it sent (`SendEffect`). What the handlers do not do is
end a loop: `Pause` only raises a flag that a suspended loop looks at when it wakes up, and
the next `Start` lowers the flag again. A loop that slept through both goes on, beside the new
one.

* `secondLoop_interleaves` is such a run.
* `oneSendLoop_iff` is the exact condition on a run: at most one loop can ever send, and the
  chunks are contiguous, if and only if every `Start` that is taken up finds no loop that
  still owes a chunk.
-/

namespace Rapidly.FileSharing.Uploader

open Connection Transition

variable {W : WebCrypto} {share : Share}

/-! ### What a connection still owes -/

/-- The chunk a suspended computation has still to send: file name and offset. -/
def Task.pendingChunk : Task → Option (String × ℕ)
  | .sendLoop loop .sent => if loop.final then none else some (loop.fileName, loop.stop)
  | .sendLoop loop _ => some (loop.fileName, loop.offset)
  | _ => none

/-- The chunks owed by all suspended computations. -/
def Connection.pending (s : Connection) : List (String × ℕ) :=
  s.tasks.filterMap Task.pendingChunk

/-- The computation can still send a chunk as the pause flag stands: past its last look at
the flag it sends whatever the flag says. -/
def Task.canSend (sendingPaused : Bool) : Task → Bool
  | .sendLoop _ (.prefetching _) | .sendLoop _ (.buffering _) => true
  | .sendLoop loop .sent => !loop.final && !sendingPaused
  | .sendLoop _ _ => !sendingPaused
  | _ => false

/-- At most one send loop is able to send after the step. -/
def OneSendLoop (W : WebCrypto) (share : Share) : System.Condition Connection Event :=
  fun _ s event =>
    let s' := (step W share s event).1
    s'.tasks.countP (Task.canSend s'.sendingPaused) ≤ 1

instance (past : List Event) (s : Connection) (event : Event) :
    Decidable (OneSendLoop W share past s event) :=
  inferInstanceAs (Decidable (_ ≤ 1))

/-- The step is not a `Start` that is taken up beside a loop that still owes a chunk. -/
def StartsAlone (share : Share) : System.Condition Connection Event :=
  fun _ s event =>
    match event with
    | .received (.start fileName offset) =>
      StartAdmissible share s fileName offset → (s.status = .ready ∨ s.status = .paused) →
        s.pending = []
    | _ => True

instance (past : List Event) (s : Connection) :
    ∀ event, Decidable (StartsAlone share past s event) := by
  rintro ⟨⟩
  case received message =>
    revert message
    rintro ⟨⟩
    case start =>
      dsimp only [StartsAlone]
      infer_instance
    all_goals exact isTrue trivial
  all_goals exact isTrue trivial

variable {task : Task} {os : List Output} {r : Connection × List Output}

theorem Task.pendingChunk_isSome_of_canSend {sendingPaused : Bool}
    (h : task.canSend sendingPaused) : task.pendingChunk.isSome := by
  cases task with
  | sendLoop loop point =>
    cases point with
    | sent =>
      have hfinal : loop.final = false := by
        cases hf : loop.final <;> simp_all [Task.canSend]
      simp [Task.pendingChunk, hfinal]
    | _ => rfl
  | _ => simp [Task.canSend] at h

theorem Task.canSend_of_pendingChunk (h : task.pendingChunk.isSome) : task.canSend false := by
  cases task with
  | sendLoop loop point =>
    cases point with
    | sent =>
      cases hf : loop.final
      · simp [Task.canSend, hf]
      · simp [Task.pendingChunk, hf] at h
    | _ => rfl
  | _ => cases h

theorem countP_canSend_le (s : Connection) :
    s.tasks.countP (Task.canSend s.sendingPaused) ≤ s.pending.length := by
  rw [Connection.pending, List.length_filterMap_eq_countP]
  exact List.countP_mono_left fun _ _ => Task.pendingChunk_isSome_of_canSend

@[simp] theorem pending_spawn (s : Connection) (task : Task) :
    (s.spawn task).pending = s.pending ++ task.pendingChunk.toList := by
  cases h : task.pendingChunk <;> simp [Connection.pending, h]

theorem pending_perm {s : Connection} {i : ℕ} (h : s.tasks[i]? = some task) :
    s.pending.Perm
      (task.pendingChunk.toList ++
        { s with tasks := s.tasks.eraseIdx i : Connection }.pending) := by
  obtain ⟨hi, rfl⟩ := List.getElem?_eq_some_iff.mp h
  have hperm := (List.getElem_cons_eraseIdx_perm hi).symm.filterMap Task.pendingChunk
  rw [List.filterMap_cons] at hperm
  cases hchunk : s.tasks[i].pendingChunk <;> simpa [Connection.pending, hchunk] using hperm

/-! ### Contiguous logs -/

/-- The chunk due after an output, given the chunk due before it. -/
def dueAfter (due : Option (String × ℕ)) : Output → Option (String × ℕ)
  | .uploading fileName offset => some (fileName, offset)
  | .sent (.chunk _ _ _ _ final) =>
    if final then none else due.map fun d => (d.1, d.2 + maxChunkSize)
  | _ => due

/-- The file and offset of a chunk sent. -/
def Output.chunkSent : Output → Option (String × ℚ)
  | .sent (.chunk fileName _ offset _ _) => some (fileName, offset)
  | _ => none

/-- The output is allowed when the given chunk is due: a chunk must be the one due. -/
def Allowed (due : Option (String × ℕ)) (o : Output) : Prop :=
  o.chunkSent.isSome → o.chunkSent = due.map fun d => (d.1, (d.2 : ℚ))

instance (due : Option (String × ℕ)) (o : Output) : Decidable (Allowed due o) :=
  inferInstanceAs (Decidable (_ → _))

/-- Every chunk of the log is the one due: the first at the offset of the last `Start` taken
up, the next where the previous one ended, none after the final one. -/
def Contiguous : Option (String × ℕ) → List Output → Prop
  | _, [] => True
  | due, o :: os => Allowed due o ∧ Contiguous (dueAfter due o) os

instance decidableContiguous : ∀ due os, Decidable (Contiguous due os)
  | _, [] => isTrue trivial
  | due, o :: os =>
    have : Decidable (Contiguous (dueAfter due o) os) := decidableContiguous _ os
    inferInstanceAs (Decidable (_ ∧ _))

/-- The chunk due after a log. -/
def dueAfterLog (due : Option (String × ℕ)) (os : List Output) : Option (String × ℕ) :=
  os.foldl dueAfter due

theorem contiguous_append {due : Option (String × ℕ)} {os os' : List Output} :
    Contiguous due (os ++ os') ↔ Contiguous due os ∧ Contiguous (dueAfterLog due os) os' := by
  induction os generalizing due with
  | nil => simp [Contiguous, dueAfterLog]
  | cons o os ih => simp [Contiguous, dueAfterLog, ih, and_assoc]

theorem dueAfterLog_append (due : Option (String × ℕ)) (os os' : List Output) :
    dueAfterLog due (os ++ os') = dueAfterLog (dueAfterLog due os) os' :=
  List.foldl_append

theorem dueAfter_of_not_isTransfer (due : Option (String × ℕ)) {o : Output}
    (h : o.isTransfer = false) : dueAfter due o = due ∧ Allowed due o := by
  cases o with
  | sent message => cases message <;> first | exact ⟨rfl, nofun⟩ | cases h
  | uploading fileName offset => cases h
  | _ => exact ⟨rfl, nofun⟩

theorem contiguous_of_quiet (due : Option (String × ℕ))
    (h : ∀ o ∈ os, o.isTransfer = false) : Contiguous due os ∧ dueAfterLog due os = due := by
  induction os with
  | nil => exact ⟨trivial, rfl⟩
  | cons o os ih =>
    obtain ⟨hdue, hallowed⟩ := dueAfter_of_not_isTransfer due (h o List.mem_cons_self)
    obtain ⟨hos, hlog⟩ := ih fun o ho => h o (List.mem_cons_of_mem _ ho)
    refine ⟨⟨hallowed, ?_⟩, ?_⟩
    · rw [hdue]
      exact hos
    · rw [dueAfterLog, List.foldl_cons, hdue]
      exact hlog

/-! ### What a stretch does to the debt -/

/-- The stretch leaves a given debt and neither starts a transfer nor sends a chunk. -/
structure Quiet (debt : List (String × ℕ)) (r : Connection × List Output) : Prop where
  pending : r.1.pending = debt
  quiet : ∀ o ∈ r.2, o.isTransfer = false

theorem Idle.quiet_pending {s : Connection} (h : Idle s r) : Quiet s.pending r := by
  obtain ⟨added, hadded, hloops⟩ := h.tasks
  refine ⟨?_, h.quiet⟩
  have hnone : added.filterMap Task.pendingChunk = [] := by
    rw [List.filterMap_eq_nil_iff]
    intro task htask
    have hloop := hloops task htask
    cases task with
    | sendLoop loop point => cases hloop
    | _ => rfl
  rw [Connection.pending, hadded, List.filterMap_append, hnone, List.append_nil]
  rfl

/-- What waking a computation that owes `due` does, given the debt of the others. -/
inductive SendEffect (due : Option (String × ℕ)) (debt : List (String × ℕ))
    (r : Connection × List Output) : Prop
  /-- It ends, or owed nothing. -/
  | ended (h : Quiet debt r)
  /-- It suspends again, still owing the same chunk. -/
  | waits (h : Quiet (debt ++ due.toList) r)
  /-- It sends the chunk due and owes the one after it, unless that was the final one. -/
  | sends (fileName : String) (fileIndex : Option ℚ) (offset : ℕ) (bytes : Bytes)
      (final : Bool) (hdue : due = some (fileName, offset))
      (houtputs : r.2 = [.sent (.chunk fileName fileIndex offset bytes final)])
      (hpending : r.1.pending =
        debt ++ if final then [] else [(fileName, offset + maxChunkSize)])

section SendLoop

variable (loop : SendLoop) (s : Connection) (settlement : Settlement)

theorem SendLoop.stop_of_not_final (h : loop.final = false) :
    loop.stop = loop.offset + maxChunkSize := by
  simp only [SendLoop.final, isFinalChunk, ge_iff_le, decide_eq_false_iff_not, not_le] at h
  exact min_eq_right h.le

theorem pendingChunk_of_ne_sent {point : SendPoint} (h : point ≠ .sent) :
    (Task.sendLoop loop point).pendingChunk = some (loop.fileName, loop.offset) := by
  cases point with
  | sent => exact absurd rfl h
  | _ => rfl

theorem sends_transmit (chunkBytes : Bytes) :
    SendEffect (some (loop.fileName, loop.offset)) s.pending (transmit loop chunkBytes s) := by
  refine .sends loop.fileName (some loop.fileIndex) loop.offset chunkBytes loop.final rfl rfl ?_
  rw [transmit, pending_spawn]
  cases hfinal : loop.final
  · simp [Task.pendingChunk, hfinal, loop.stop_of_not_final hfinal]
  · simp [Task.pendingChunk, hfinal]

theorem Suspends.pendingChunk_eq {iv : Bytes} {loop loop' : SendLoop} {point point' : SendPoint}
    (h : Suspends W iv loop point loop' point') :
    (Task.sendLoop loop' point').pendingChunk = (Task.sendLoop loop point).pendingChunk := by
  -- before the chunk is out, what is owed is its offset
  have hsame (hchunk : loop.SameChunk loop' ∧ point ≠ .sent) (hpoint' : point' ≠ .sent) :
      (Task.sendLoop loop' point').pendingChunk = (Task.sendLoop loop point).pendingChunk := by
    obtain ⟨⟨buffer, promise, rfl⟩, hpoint⟩ := hchunk
    rw [pendingChunk_of_ne_sent _ hpoint', pendingChunk_of_ne_sent loop hpoint]
  cases h with
  | reading => rfl
  | awaitingKey hread => exact hsame hread.sameChunk fun h => SendPoint.noConfusion h
  | encrypting => rfl
  | prefetching hchunk => exact hsame hchunk.sameChunk fun h => SendPoint.noConfusion h
  | buffering hsend => exact hsame hsend.sameChunk fun h => SendPoint.noConfusion h
  | scheduled hfinal => simp [Task.pendingChunk, hfinal]

theorem effect_resumeSendLoop (point : SendPoint) :
    SendEffect (Task.sendLoop loop point).pendingChunk s.pending
      (resumeSendLoop W share loop point settlement s) := by
  cases resumeSendLoop_cases W share loop point settlement s with
  | stops hidle => exact .ended hidle.quiet_pending
  | suspends loop' point' hnext hr =>
    refine .waits ⟨?_, by simp [hr]⟩
    rw [hr, pending_spawn, hnext.pendingChunk_eq]
  | sends loop' chunkBytes hsend hr =>
    have hchunk : loop.SameChunk loop' ∧ point ≠ .sent := by
      rcases hsend with hsend | ⟨rfl, rfl⟩
      · exact hsend.sameChunk
      · exact ⟨⟨_, _, rfl⟩, fun h => SendPoint.noConfusion h⟩
    obtain ⟨⟨buffer, promise, rfl⟩, hpoint⟩ := hchunk
    rw [hr, pendingChunk_of_ne_sent loop hpoint]
    exact sends_transmit { loop with prefetchedBuffer := buffer, prefetchPromise := promise } s
      chunkBytes

end SendLoop

theorem effect_resumeTask (task : Task) (settlement : Settlement) (s : Connection) :
    SendEffect task.pendingChunk s.pending (resumeTask W share task settlement s) := by
  cases task with
  | sendLoop loop point => exact effect_resumeSendLoop loop s settlement point
  | _ => exact .ended (idle_resumeTask rfl settlement s).quiet_pending

/-! ### One loop along a run -/

/-- The invariant: the chunks sent so far were due, and at most one chunk is owed, the one
due next. -/
structure InOrder (s : Connection) (os : List Output) : Prop where
  contiguous : Contiguous none os
  pending : s.pending = [] ∨ ∃ due, s.pending = [due] ∧ dueAfterLog none os = some due

theorem InOrder.of_quiet {s : Connection}
    (h : InOrder s os) (hr : Quiet s.pending r) : InOrder r.1 (os ++ r.2) := by
  obtain ⟨hcontiguous, hlog⟩ := contiguous_of_quiet (dueAfterLog none os) hr.quiet
  refine ⟨contiguous_append.mpr ⟨h.contiguous, hcontiguous⟩, ?_⟩
  rw [hr.pending, dueAfterLog_append, hlog]
  exact h.pending

theorem InOrder.takesUp {s : Connection} {fileName : String} {offset : ℚ} {loop : SendLoop}
    (h : InOrder s os) (hr : TakesUp s fileName offset r loop) (hpending : s.pending = []) :
    InOrder r.1 (os ++ r.2) := by
  refine ⟨contiguous_append.mpr ⟨h.contiguous, ?_⟩, .inr ⟨(fileName, loop.offset), ?_, ?_⟩⟩
  · rw [hr.outputs]
    exact ⟨nofun, trivial⟩
  · have hspawn : r.1.pending = s.pending ++ [(loop.fileName, loop.offset)] := by
      rw [hr.connection]
      exact pending_spawn s (.sendLoop loop .scheduled)
    rw [hspawn, hpending, hr.fileName_eq]
    rfl
  · rw [dueAfterLog_append, hr.outputs]
    rfl

theorem InOrder.resumed {s : Connection} {i : ℕ}
    (h : InOrder s os) (htask : s.tasks[i]? = some task)
    (hr : SendEffect task.pendingChunk
      { s with tasks := s.tasks.eraseIdx i : Connection }.pending r) :
    InOrder r.1 (os ++ r.2) := by
  have hperm := pending_perm htask
  set rest := { s with tasks := s.tasks.eraseIdx i : Connection }.pending with hrest
  -- the debt without the woken computation, and with it
  have hdebt : (task.pendingChunk = none ∧ rest = s.pending) ∨
      ∃ due, task.pendingChunk = some due ∧ rest = [] ∧ s.pending = [due] ∧
        dueAfterLog none os = some due := by
    rcases hchunk : task.pendingChunk with _ | due <;> rw [hchunk] at hperm
    · refine .inl ⟨rfl, ?_⟩
      rcases h.pending with hnil | ⟨due, hone, -⟩
      · rw [hnil] at hperm ⊢
        exact hperm.nil_eq.symm
      · rw [hone] at hperm ⊢
        exact List.perm_singleton.mp hperm.symm
    · refine .inr ⟨due, rfl, ?_⟩
      rcases h.pending with hnil | ⟨due', hone, hdue⟩
      · rw [hnil] at hperm
        exact absurd hperm.nil_eq (by simp)
      · rw [hone] at hperm
        have hsingle := List.perm_singleton.mp hperm.symm
        obtain ⟨rfl, hnil⟩ := List.cons.inj hsingle
        exact ⟨hnil, hone, hdue⟩
  cases hr with
  | ended hquiet =>
    obtain ⟨hcontiguous, hlog⟩ := contiguous_of_quiet (dueAfterLog none os) hquiet.quiet
    refine ⟨contiguous_append.mpr ⟨h.contiguous, hcontiguous⟩, ?_⟩
    rw [hquiet.pending, dueAfterLog_append, hlog]
    rcases hdebt with ⟨-, hsame⟩ | ⟨due, -, hnil, -, -⟩
    · rw [hsame]
      exact h.pending
    · exact .inl hnil
  | waits hquiet =>
    obtain ⟨hcontiguous, hlog⟩ := contiguous_of_quiet (dueAfterLog none os) hquiet.quiet
    refine ⟨contiguous_append.mpr ⟨h.contiguous, hcontiguous⟩, ?_⟩
    rw [hquiet.pending, dueAfterLog_append, hlog]
    rcases hdebt with ⟨hnone, hsame⟩ | ⟨due, hsome, hnil, -, hdue⟩
    · rw [hnone, hsame]
      simpa using h.pending
    · rw [hsome, hnil]
      exact .inr ⟨due, rfl, hdue⟩
  | sends fileName fileIndex offset bytes final hdue houtputs hpending =>
    obtain ⟨due, hsome, hnil, -, hlog⟩ := hdebt.resolve_left fun h' => by
      rw [h'.1] at hdue
      cases hdue
    obtain rfl : due = (fileName, offset) := Option.some.inj (hsome.symm.trans hdue)
    refine ⟨contiguous_append.mpr ⟨h.contiguous, ?_⟩, ?_⟩
    · rw [houtputs, hlog]
      exact ⟨fun _ => rfl, trivial⟩
    · rw [hpending, hnil, dueAfterLog_append, houtputs, hlog]
      cases final
      · exact .inr ⟨_, rfl, rfl⟩
      · exact .inl rfl

/-- One step keeps the invariant, when a `Start` taken up finds no chunk owed. -/
theorem InOrder.step {past : List Event} {s : Connection} {event : Event} (h : InOrder s os)
    (hstart : StartsAlone share past s event) :
    InOrder (step W share s event).1 (os ++ (step W share s event).2) := by
  obtain ⟨-, hidle⟩ | ⟨fileName, offset, loop, rfl, hadm, htakes⟩ |
    ⟨i, settlement, task, rfl, htask, hstep⟩ := step_cases W share s event
  · exact h.of_quiet hidle.quiet_pending
  · exact h.takesUp htakes (hstart hadm htakes.status)
  · rw [hstep]
    exact h.resumed htask (effect_resumeTask task settlement _)

theorem InOrder.countP_canSend_le {s : Connection} (h : InOrder s os) :
    s.tasks.countP (Task.canSend s.sendingPaused) ≤ 1 := by
  refine (Uploader.countP_canSend_le s).trans ?_
  rcases h.pending with hnil | ⟨due, hone, -⟩
  · simp [hnil]
  · simp [hone]

/-- A `Start` taken up beside a loop that still owes a chunk makes two loops that can send:
taking it up lowers the pause flag. -/
theorem startsAlone_of_oneSendLoop {past : List Event} {s : Connection} {event : Event}
    (h : OneSendLoop W share past s event) : StartsAlone share past s event := by
  unfold StartsAlone
  split
  next fileName offset =>
    intro hadm hstatus
    have hstep : Uploader.step W share s (.received (.start fileName offset)) =
        onStart W share fileName offset s := by
      simp [Uploader.step, hadm.1, onData]
    obtain ⟨-, loop, htakes⟩ | ⟨hnot, -⟩ := onStart_cases W share s fileName offset hadm.1
    · have hcount : s.tasks.countP (Task.canSend false) = 0 := by
        dsimp only [OneSendLoop] at h
        rw [hstep, htakes.connection] at h
        simpa [List.countP_append, Task.canSend] using h
      rw [Connection.pending, List.filterMap_eq_nil_iff]
      intro task htask
      by_contra hchunk
      exact List.countP_eq_zero.mp hcount task htask
        (Task.canSend_of_pendingChunk (Option.isSome_iff_ne_none.mpr hchunk))
    · exact absurd ⟨hadm, hstatus⟩ hnot
  · trivial

/-- **One send loop.** At any moment of a run at most one loop is able to send, and the chunks
are contiguous from the offset of each `Start` on, if and only if every `Start` that is taken
up finds no earlier loop with a chunk still to send. -/
theorem oneSendLoop_iff (W : WebCrypto) (share : Share) (events : List Event) :
    ((uploader W share).Along (OneSendLoop W share) events ∧
      Contiguous none ((uploader W share).log events)) ↔
      (uploader W share).Along (StartsAlone share) events := by
  have hinit : InOrder (uploader W share).init [] := ⟨trivial, .inl rfl⟩
  have hstep : ∀ past event,
      InOrder ((uploader W share).after past) ((uploader W share).log past) →
      StartsAlone share past ((uploader W share).after past) event →
      InOrder ((uploader W share).step ((uploader W share).after past) event).1
        ((uploader W share).log past ++
          ((uploader W share).step ((uploader W share).after past) event).2) :=
    fun _ _ h hstart => h.step hstart
  constructor
  · rintro ⟨hone, -⟩
    exact (uploader W share).along_mono (fun _ _ _ => startsAlone_of_oneSendLoop) hone
  · intro h
    refine ⟨?_, ?_⟩
    · exact (uploader W share).along_of_along (fun _ s os => InOrder s os) hinit hstep
        (fun past event hinv hstart => (hinv.step hstart).countP_canSend_le) h
    · exact ((uploader W share).invariant_of_along (fun _ s os => InOrder s os) hinit
        hstep h).contiguous

/-- A share without password, for runs of the model. -/
def openShare : Share := { files := [{ name := "a", content := [1, 2, 3] }], password := "" }

/-- A pause and a resume that both arrive while the first loop is still reading its slice
leave two loops, and the file is sent twice. -/
theorem secondLoop_interleaves :
    ¬∀ (W : WebCrypto) (share : Share) (events : List Event),
      (uploader W share).Along (OneSendLoop W share) events ∧
        Contiguous none ((uploader W share).log events) := by
  intro h
  have horder := h plainCrypto openShare
    [.opened, .received .requestInfo, .received (.start "a" 0), .resumed 0 {},
      .received .pause, .received (.start "a" 0), .resumed 1 {}, .resumed 0 {},
      .resumed 0 {}]
  revert horder
  decide

end Rapidly.FileSharing.Uploader
