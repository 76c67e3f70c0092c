import LiteMqtt.Connection.WriteQueue

/-!
# Every handler is answered once

An item with a handler is in exactly one place from its submission on, and the last place is
its answer. What still has to be answered always has something left to run that answers it.
-/

namespace LiteMqtt

variable {H : Type}

/-- The serials that some handler awaits. -/
def awaited (items : List (WriteItem H)) : List Nat :=
  (items.filter (·.handler.isSome)).map WriteItem.serial

@[simp] theorem awaited_nil : awaited ([] : List (WriteItem H)) = [] := rfl

@[simp] theorem awaited_append (xs ys : List (WriteItem H)) :
    awaited (xs ++ ys) = awaited xs ++ awaited ys := by
  simp [awaited]

theorem awaited_cons (item : WriteItem H) (items : List (WriteItem H)) :
    awaited (item :: items) = awaited [item] ++ awaited items := awaited_append [item] items

theorem answer_serials (item : WriteItem H) (ec : ErrorCode) :
    (item.answer ec).map Prod.fst = awaited [item] := by
  cases h : item.handler <;> simp [WriteItem.answer, awaited, h]

theorem answers_serials (items : List (WriteItem H)) (ec : ErrorCode) :
    (items.flatMap fun item => item.answer ec).map Prod.fst = awaited items := by
  induction items with
  | nil => rfl
  | cons item items ih =>
    rw [List.flatMap_cons, List.map_append, answer_serials, ih, awaited_cons item items]

namespace WriteQueue

/-- The handlers that have yet to be called, and where each is. -/
def unanswered (w : WriteQueue H) : List Nat :=
  awaited w.posted ++ awaited w.rejected ++ awaited w.queue ++ awaited w.inFlight.toList ++
    w.calls.map Prod.fst

/-- Each submitted handler has been called or is in one place. -/
def Accounted (w : WriteQueue H) : Prop :=
  (w.unanswered ++ w.handled.map Prod.fst).Perm (awaited w.submitted)

theorem accounted_iff {w : WriteQueue H} : w.Accounted ↔ ∀ serial,
    (awaited w.posted).count serial + (awaited w.rejected).count serial +
      (awaited w.queue).count serial + (awaited w.inFlight.toList).count serial +
      (w.calls.map Prod.fst).count serial + (w.handled.map Prod.fst).count serial =
    (awaited w.submitted).count serial := by
  simp only [Accounted, unanswered, List.perm_iff_count, List.count_append]

theorem Accounted.kick {w v : WriteQueue H} (kick : Kick w v) (h : w.Accounted) (pairedWrites : Paired w) :
    v.Accounted := by
  cases kick with
  | rest => exact h
  | defer => exact h
  | start item rest free opened front =>
    rw [accounted_iff] at h ⊢
    intro serial
    have before := h serial
    rw [front, awaited_cons, (pairedWrites.idle free).1] at before
    simp only [start, Option.toList_some, Option.toList_none, awaited_nil, List.count_append,
      List.count_nil] at before ⊢
    omega

theorem Accounted.fail {w : WriteQueue H} (ec : AsioError) (h : w.Accounted) : (w.fail ec).Accounted := by
  rw [accounted_iff] at h ⊢
  intro serial
  have before := h serial
  simp only [WriteQueue.fail, List.map_append, answers_serials, awaited_nil, List.count_append,
    List.count_nil]
  omega

theorem Accounted.step {w v : WriteQueue H} (h : w.Accounted) (pairedWrites : Paired w) (step : Step w v) :
    v.Accounted := by
  have counts := accounted_iff.mp h
  cases step with
  | submit item =>
    rw [accounted_iff]
    intro serial
    have before := counts serial
    simp only [awaited_append, List.count_append]
    omega
  | accept item rest front opened _ kick =>
    refine .kick kick (accounted_iff.mpr fun serial => ?_) (pairedWrites.accept opened item rest)
    have before := counts serial
    rw [front, awaited_cons] at before
    simp only [accept, awaited_append, List.count_append] at before ⊢
    omega
  | reject item rest front =>
    refine accounted_iff.mpr fun serial => ?_
    have before := counts serial
    rw [front, awaited_cons] at before
    simp only [awaited_append, List.count_append] at before ⊢
    omega
  | refuse item rest front =>
    refine accounted_iff.mpr fun serial => ?_
    have before := counts serial
    rw [front, awaited_cons] at before
    simp only [List.map_append, answer_serials, List.count_append] at before ⊢
    omega
  | finish item ec rest front flying =>
    refine accounted_iff.mpr fun serial => ?_
    have before := counts serial
    rw [flying] at before
    simp only [WriteQueue.finish, List.map_append, answer_serials, Option.toList_some, Option.toList_none,
      awaited_nil, List.count_append, List.count_nil] at before ⊢
    omega
  | settle rest front kick => exact .kick kick h (pairedWrites.settle front).2
  | call c rest front =>
    refine accounted_iff.mpr fun serial => ?_
    have before := counts serial
    simp only [front, List.map_append, List.map_cons, List.map_nil, List.count_append, List.count_cons,
      List.count_nil] at before ⊢
    omega
  | fail ec => exact .fail ec h
  | collapse ec => exact .fail ec h
  | close =>
    refine .fail _ (accounted_iff.mpr fun serial => ?_)
    have before := counts serial
    simp only [abort, List.map_append, answers_serials, Option.toList_none, awaited_nil, List.count_append,
      List.count_nil]
    omega
  | _ => exact h

/-- Handlers are numbered apart, so none is called twice. -/
theorem Accounted.once {w : WriteQueue H} (h : w.Accounted) (ordered : Ordered w) :
    (w.handled.map Prod.fst).Nodup := by
  have apart : (awaited w.submitted).Nodup := by
    have among : (awaited w.submitted).Sublist (w.submitted.map WriteItem.serial) :=
      (List.filter_sublist).map _
    exact among.nodup (ordered.numbered ▸ List.nodup_range)
  exact (List.nodup_append.mp (h.nodup_iff.mpr apart)).2.1

/-! ### What a success means -/

/-- A handler is told of success only when its own frame was written. -/
structure Honest (w : WriteQueue H) : Prop where
  completed : ∀ serial, (serial, none) ∈ w.completing → serial ∈ w.succeeded
  called : ∀ serial, (serial, none) ∈ w.calls ++ w.handled → serial ∈ w.succeeded

theorem Honest.kick {w v : WriteQueue H} (kick : Kick w v) (h : Honest w) : Honest v := by
  cases kick with
  | rest => exact h
  | defer => exact ⟨h.completed, h.called⟩
  | start => exact ⟨h.completed, h.called⟩

theorem success_answer {item : WriteItem H} {ec : ErrorCode} {serial : Nat}
    (told : (serial, none) ∈ item.answer ec) : (item.serial, ec) = (serial, none) := by
  unfold WriteItem.answer at told
  split at told
  · exact (List.mem_singleton.mp told).symm
  · simp at told

theorem not_success {item : WriteItem H} {ec : AsioError} {serial : Nat} :
    (serial, none) ∉ item.answer (some ec) := by
  intro told
  simpa using success_answer told

theorem no_success {items : List (WriteItem H)} {ec : AsioError} {serial : Nat} :
    (serial, none) ∉ items.flatMap fun item => item.answer (some ec) := by
  simp [not_success]

theorem Honest.fail {w : WriteQueue H} (ec : AsioError) (h : Honest w) : Honest (w.fail ec) := by
  refine ⟨h.completed, fun serial told => h.called serial ?_⟩
  simpa [WriteQueue.fail, not_success] using told

theorem Honest.abort {w : WriteQueue H} (h : Honest w) : Honest w.abort := by
  refine ⟨fun serial done => h.completed serial ?_, h.called⟩
  simpa [WriteQueue.abort] using done

theorem Honest.step {w v : WriteQueue H} (h : Honest w) (step : Step w v) : Honest v := by
  have completed := h.completed
  have called := h.called
  cases step with
  | accept item rest _ _ _ kick => exact .kick kick ⟨completed, called⟩
  | refuse item rest =>
    refine ⟨completed, fun serial told => called serial ?_⟩
    simpa [not_success] using told
  | fail ec =>
    refine .fail ec ?_
    exact ⟨completed, called⟩
  | stale c rest front =>
    exact ⟨fun serial done => completed serial (front ▸ List.mem_cons_of_mem c done), called⟩
  | finish item ec rest front =>
    refine ⟨fun serial done => completed serial (front ▸ List.mem_cons_of_mem _ done), ?_⟩
    intro serial told
    simp only [WriteQueue.finish, List.append_assoc, List.mem_append (s := item.answer ec)] at told
    rcases told with now | before
    · exact completed serial (front ▸ success_answer now ▸ List.mem_cons_self)
    · exact called serial before
  | settle rest _ kick => exact .kick kick ⟨completed, called⟩
  | collapse ec rest =>
    obtain ⟨completed, called⟩ := h.abort
    refine .fail ec ?_
    exact ⟨completed, called⟩
  | call c rest front =>
    refine ⟨completed, fun serial told => called serial ?_⟩
    simp only [front, List.mem_append, List.mem_cons] at told ⊢
    tauto
  | complete serial unsent ec xs ys =>
    have grown : w.succeeded ⊆ if ec.isNone then w.succeeded ++ [serial] else w.succeeded := by
      split
      · exact List.subset_append_left _ _
      · exact List.Subset.refl _
    refine ⟨fun other done => ?_, fun other told => grown (called other told)⟩
    rcases List.mem_append.mp done with earlier | last
    · exact grown (completed other earlier)
    · obtain ⟨rfl, rfl⟩ : other = serial ∧ none = ec := by simpa using last
      simp
  | close =>
    refine .fail _ ⟨h.abort.completed, fun serial told => called serial ?_⟩
    simpa [no_success, not_success, WriteQueue.abort] using told
  | replace =>
    obtain ⟨completed, called⟩ := h.abort
    exact ⟨completed, called⟩
  | _ => exact ⟨completed, called⟩

/-! ### Nothing is parked -/

/-- Whatever waits has something left to run that moves it on. -/
structure Pursued (w : WriteQueue H) : Prop where
  flying : ∀ item, w.inFlight = some item → item.serial ∈ w.live
  waiting : w.queue ≠ [] → w.inFlight.isSome ∨ w.failing ≠ [] ∨ w.settling ≠ []

theorem Pursued.kick {w v : WriteQueue H} (kick : Kick w v) (pairedWrites : Paired w)
    (flying : ∀ item, w.inFlight = some item → item.serial ∈ w.live) : Pursued v := by
  cases kick with
  | rest nothing =>
    refine ⟨flying, fun queued => .inl ?_⟩
    rcases nothing with busy | empty
    · exact pairedWrites.paired ▸ busy
    · exact absurd empty queued
  | defer => exact ⟨flying, fun _ => .inr (.inl (by simp))⟩
  | start item rest =>
    refine ⟨?_, fun _ => .inl rfl⟩
    intro other same
    obtain rfl : item = other := Option.some.inj same
    simp [live, start, WriteItem.frame]

theorem Pursued.step {w v : WriteQueue H} (h : Pursued w) (pairedWrites : Paired w) (step : Step w v) :
    Pursued v := by
  have ⟨flying, waiting⟩ := h
  have aborted : ∀ item, w.inFlight = some item → item.serial ∈ w.abort.live := by
    intro item held
    rw [live_abort]
    exact List.perm_append_comm.mem_iff.mp (flying item held)
  cases step with
  | accept item rest _ opened _ kick => exact .kick kick (pairedWrites.accept opened item rest) flying
  | settle rest front kick => exact .kick kick (pairedWrites.settle front).2 flying
  | fail ec rest => exact ⟨flying, fun some => absurd rfl some⟩
  | collapse ec rest => exact ⟨aborted, fun some => absurd rfl some⟩
  | stale c rest front landed => exact ⟨fun item held => absurd (held.symm.trans landed) (by simp), waiting⟩
  | finish => exact ⟨fun item held => absurd held.symm (Option.some_ne_none item), fun _ => .inr (.inr (by simp))⟩
  | send serial unsent count xs ys out =>
    refine ⟨fun item held => ?_, waiting⟩
    have among := flying item held
    simp only [live, out, List.map_append, List.map_cons] at among ⊢
    exact among
  | complete serial unsent ec xs ys out =>
    refine ⟨fun item held => ?_, waiting⟩
    have among := flying item held
    simp only [live, out, List.map_append, List.map_cons, List.mem_append, List.mem_cons] at among ⊢
    tauto
  | replace => exact ⟨aborted, waiting⟩
  | close => exact ⟨fun item held => absurd held.symm (Option.some_ne_none item), fun some => absurd rfl some⟩
  | _ => exact ⟨flying, waiting⟩

/-- With nothing left to run, no handler is left to call. -/
theorem Pursued.settled {w : WriteQueue H} (h : Pursued w) (accounted : w.Accounted)
    (posted : w.posted = []) (rejected : w.rejected = []) (failing : w.failing = [])
    (live : w.live = []) (settling : w.settling = []) (calls : w.calls = []) :
    (w.handled.map Prod.fst).Perm (awaited w.submitted) := by
  have landed : w.inFlight = none := by
    rw [Option.eq_none_iff_forall_ne_some]
    intro item held
    simpa [live] using h.flying item held
  have empty : w.queue = [] := by
    by_contra queued
    simpa [landed, failing, settling] using h.waiting queued
  simpa [Accounted, unanswered, posted, rejected, landed, empty, calls] using accounted

end WriteQueue

end LiteMqtt
