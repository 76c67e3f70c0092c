import LiteMqtt.Client.Driving
import LiteMqtt.Client.Ending
import LiteMqtt.Client.Outline
import LiteMqtt.Connection.Greeting

/-!
# CONNECT comes first

The client posts its CONNECT when it hears that the TCP connect is through. Frames that were handed over
before that are on their way already, and a connect that an earlier attempt left behind may still replace
the socket of a session.
-/

namespace LiteMqtt
namespace Sys

variable {s t u : Sys} {topics : List Topic}

/-- On every TCP connection the first frame is a CONNECT, and no other frame is one. -/
def ConnectFirst (s : Sys) : Prop := ∀ socket ∈ s.net.past ++ [s.net.socket], socket.Greeted isConnectFrame

/-- Nothing waits to be written when the client hears of a TCP connect that succeeded, no connect of an
earlier attempt cuts in, and no CONNACK is handled before its connection is up. -/
def prompt (s : Sys) (a : Action) : Bool :=
  (match a with
  | .run => s.net.timely
  | .exec =>
      match s.net.stack with
      | .invoke (.connect _ none) :: _ => s.closed || (s.net.writeQueue.isEmpty && s.net.handedOver.isEmpty)
      | _ => true
  | _ => true) && ((s.accepting a).isNone || s.net.closed || !decide s.net.Between)

def Prompt (s : Sys) (a : Action) : Prop := s.prompt a = true

instance (s : Sys) (a : Action) : Decidable (s.Prompt a) := inferInstanceAs (Decidable (_ = true))

def Courteous (s : Sys) : Prop := s.net.Courteous isConnectFrame

/-- The client, with no call of a connect's handler on its stack. -/
structure Mannered (s : Sys) : Prop where
  courteous : s.Courteous
  landed : s.net.Landed

theorem Mannered.aside {tasks : List (Task Handler Work)} (h : s.Mannered) (aside : s.net.Aside t.net tasks) :
    t.Mannered :=
  ⟨aside.courteous h.courteous, aside.landed h.landed⟩

theorem aside_cancelTimer (s : Sys) (timer : Nat) : s.net.Aside (s.cancelTimer timer).net
    ((s.waits.filter fun w => w.timer == timer).map fun w => .own (.timer w.handler (some .operationAborted))) := by
  refine Net.aside_of_tasks _ rfl rfl id rfl (.inl rfl) rfl (fun task among => ?_) (.inl rfl)
  obtain ⟨w, -, rfl⟩ := List.mem_map.mp among
  exact ⟨rfl, rfl, rfl⟩

theorem aside_closeConnection (landed : s.net.Landed) : ∃ tasks, s.net.Aside s.closeConnection.net tasks := by
  unfold closeConnection
  split
  · exact ⟨[], Net.aside_of_fields rfl rfl id rfl (.inl rfl) rfl (.inl rfl)⟩
  · exact Net.aside_close landed

theorem mannered_push (h : s.Mannered) (works : List Work) : (s.push works).Mannered := by
  refine h.aside (Net.aside_push h.landed fun entry among => ?_)
  obtain ⟨k, -, rfl⟩ := List.mem_map.mp among
  rfl

theorem mannered_closeConnection (h : s.Mannered) : s.closeConnection.Mannered := by
  obtain ⟨tasks, aside⟩ := aside_closeConnection h.landed
  exact h.aside aside

theorem courteous_write {packet : Packet} (other : ∀ pkt, packet ≠ .connect pkt) (handler : Handler)
    (courteous : s.Courteous) :
    (s.write packet handler).Courteous := by
  refine Net.courteous_asyncWritePacket courteous ?_ (some handler)
  by_contra greets
  obtain ⟨pkt, same⟩ := (isConnectFrame_serialize packet).mp (by simpa using greets)
  exact other pkt same

/-- Code that is not about connects. -/
theorem mannered_apply {e : Effect} (inside : e.within topics = true) (absent : Topic.connect ∉ topics)
    (h : s.Mannered) : (s.apply e).Mannered := by
  cases e with
  | push k => exact mannered_push h [k]
  | post k => exact h.aside (Net.aside_post ⟨rfl, rfl, rfl⟩)
  | write packet handler =>
    refine ⟨courteous_write (fun pkt same => ?_) handler h.courteous, h.landed⟩
    subst same
    exact absurd rfl (Effect.topic_of_within inside absent)
  | closeConnection => exact mannered_closeConnection h
  | cancelTimer timer => exact h.aside (aside_cancelTimer s timer)
  | startReadLoop attempt =>
    obtain ⟨tasks, aside⟩ := Net.aside_asyncReadPacket s.net (.read attempt)
    exact h.aside aside
  | asyncConnect callback => exact absurd rfl (Effect.topic_of_within inside absent)
  | accept => exact absurd rfl (Effect.topic_of_within inside absent)
  | _ => exact ⟨h.courteous, h.landed⟩

theorem mannered_does (does : Does topics s t) (absent : Topic.connect ∉ topics) (h : s.Mannered) : t.Mannered :=
  does.keeps (I := Mannered) (fun _ _ inside => mannered_apply inside absent) h

theorem courteous_asyncConnect (s : Sys) (callback : Bool) (courteous : s.Courteous) :
    (s.asyncConnect callback).Courteous := by
  obtain ⟨u, which, net⟩ := asyncConnect_net s callback
  have before : u.Courteous := by
    rcases which with rfl | rfl
    · exact courteous
    · exact (aside_cancelTimer s connectTimer).courteous courteous
  unfold Courteous
  rw [net]
  exact (Net.aside_asyncConnect u.net _).courteous before

theorem mannered_handleConnectTimeout (h : s.Mannered) : s.handleConnectTimeout.Mannered := by
  unfold handleConnectTimeout
  split
  · exact h
  · refine mannered_closeConnection (mannered_push ?_ _)
    exact ⟨h.courteous, h.landed⟩

theorem mannered_handleConnack (data : Bytes) (h : s.Mannered)
    (up : (ConnackPacket.parse data).returnCode = 0 → s.net.closed = true ∨ ¬ s.net.Between) :
    (s.handleConnack data).Mannered := by
  have cancelled :
      ((s.cancelTimer connectTimer).record (.received .connack 0 [(ConnackPacket.parse data).returnCode])).Mannered :=
    h.aside (aside_cancelTimer s connectTimer)
  unfold handleConnack
  dsimp only
  split
  · rename_i accepted
    refine mannered_push ?_ _
    exact cancelled.aside (Net.aside_markConnected _ (up accepted))
  · refine mannered_closeConnection (mannered_push ?_ _)
    exact ⟨cancelled.courteous, cancelled.landed⟩

theorem mannered_reportConnect (success : Bool) (returnCode : UInt8) (h : s.Mannered) :
    (s.reportConnect success returnCode).Mannered := by
  unfold reportConnect
  split
  · exact mannered_push (s := s.record _) ⟨h.courteous, h.landed⟩ _
  · exact h

/-- A call from another thread, whatever is running. -/
theorem courteous_posts {c : Call} (posts : c.anyThread = true) (courteous : s.Courteous) : (s.call c).Courteous := by
  have posted : ∀ (u : Sys) (k : Work), u.Courteous → (u.post k).Courteous := fun u k before =>
    (Net.aside_post ⟨rfl, rfl, rfl⟩).courteous before
  cases c with
  | asyncDisconnect onClosed =>
    refine courteous_write (by nofun) _ ?_
    exact (aside_cancelTimer s pingTimer).courteous courteous
  | asyncPublish topic payload qos callable => exact posted _ _ courteous
  | asyncSubscribe topic qos callable => exact posted _ _ courteous
  | _ => contradiction

/-! ### Every step -/

theorem landed_busy {entry : StackEntry Handler Work} {rest : List (StackEntry Handler Work)} (courteous : s.Courteous)
    (front : s.net.stack = entry :: rest) (other : entry.isArrival = false) : s.net.Landed := by
  rcases courteous.polite.arriving with landed | ⟨⟨only, arrival, alone⟩, -⟩
  · exact landed
  · obtain ⟨rfl, -⟩ := List.cons.inj (front.symm.trans alone)
    exact absurd (arrival.symm.trans other) nofun

theorem mannered_goesOn {entry : StackEntry Handler Work} {rest : List (StackEntry Handler Work)}
    (courteous : s.Courteous)
    (front : s.net.stack = entry :: rest) (other : entry.isArrival = false) : (s.goesOn rest).Mannered := by
  have landed := landed_busy courteous front other
  have fewer : ∀ entry ∈ rest, entry ∈ s.net.stack := fun _ among => front ▸ .tail _ among
  exact ⟨Net.courteous_popped courteous landed fewer, fun entry among => landed entry (fewer entry among)⟩

theorem mannered_idle (courteous : s.Courteous) (idle : s.idle = true) : s.Mannered := by
  refine ⟨courteous, ?_⟩
  unfold Sys.idle at idle
  split at idle
  · exact Net.landed_idle ‹_›
  · exact landed_busy courteous ‹_› rfl
  · contradiction

/-- A call of a connect's handler finds an open client that greets, or a connection that is closed. -/
theorem courteous_onConnect {attempt : Nat} {ec : ErrorCode} {rest : List (StackEntry Handler Work)}
    (courteous : s.Courteous)
    (ending : s.Ending) (sane : s.undefined = false)
    (front : s.net.stack = .invoke (.connect (.connect attempt) ec) :: rest)
    (clear : ec = none → s.closed = true ∨ s.net.writeQueue = [] ∧ s.net.handedOver = []) :
    ((s.goesOn rest).onConnect attempt ec).Courteous := by
  cases ec with
  | some ec =>
    have popped := mannered_goesOn courteous front rfl
    unfold onConnect
    split
    · exact popped.courteous
    · exact (mannered_reportConnect false 255 popped).courteous
  | none =>
    unfold onConnect
    split
    · rename_i closed
      refine Net.courteous_closed courteous front rfl ?_
      rcases ending closed with shut | ⟨k, among, -⟩ | crashed
      · exact shut
      · rcases courteous.polite.arriving with landed | ⟨⟨only, -, alone⟩, -⟩
        · have refused := landed (.invoke (.connect (.connect attempt) none)) (front ▸ .head _)
          contradiction
        · rw [front] at alone
          obtain ⟨rfl, rfl⟩ := List.cons.inj alone
          rw [Net.running, front] at among
          contradiction
      · cases sane.symm.trans crashed
    · rename_i opened
      have free := (clear rfl).resolve_left opened
      exact Net.courteous_greeting courteous front rfl free ((isConnectFrame_serialize _).mpr ⟨_, rfl⟩) _

/-- What every run keeps besides. -/
structure Poised (s : Sys) : Prop where
  courteous : s.Courteous
  sustained : s.net.Sustained
  only : Proper s.net
  ending : s.Ending

theorem prompt_run (prompt : s.Prompt .run) : s.net.timely = true := (Bool.and_eq_true_iff.mp prompt).1

theorem prompt_accepting {a : Action} {attempt : Nat} (prompt : s.Prompt a) (accepting : s.accepting a = some attempt) :
    s.net.closed = true ∨ ¬ s.net.Between := by
  have up := (Bool.and_eq_true_iff.mp prompt).2
  rw [accepting] at up
  simpa using up

theorem prompt_connected {h : Handler} {rest : List (StackEntry Handler Work)}
    (front : s.net.stack = .invoke (.connect h none) :: rest) (prompt : s.Prompt .exec) :
    s.closed = true ∨ s.net.writeQueue = [] ∧ s.net.handedOver = [] := by
  have clear := (Bool.and_eq_true_iff.mp prompt).1
  rw [front] at clear
  simpa using clear

theorem courteous_work {k : Work} {rest : List (StackEntry Handler Work)} (courteous : s.Courteous)
    (front : s.net.stack = .own k :: rest) (prompt : s.Prompt .exec) : ((s.goesOn rest).execute k).Courteous := by
  have popped := mannered_goesOn courteous front rfl
  have plain : Topic.connect ∉ workTopics k → ((s.goesOn rest).execute k).Courteous := fun absent =>
    (mannered_does (does_execute _ k) absent popped).courteous
  cases k with
  | handlePacket attempt data =>
    rcases packet_outline data with ⟨few, -⟩ | ⟨same, answer⟩
    · refine plain fun connect => ?_
      exact absurd (few connect) (by decide)
    · change ((s.goesOn rest).handlePacket attempt data).Courteous
      rw [same]
      refine (mannered_handleConnack data popped fun accepted => ?_).courteous
      have reached : s.accepting .exec = some attempt → s.net.closed = true ∨ ¬ s.net.Between := prompt_accepting prompt
      refine reached ?_
      simp [accepting, front, answer, accepted]
  | timer h ec =>
    cases h with
    | connectTimeout attempt =>
      cases ec with
      | none => exact (mannered_handleConnectTimeout popped).courteous
      | some ec => exact popped.courteous
    | _ => exact plain (by simp [workTopics, timerTopics])
  | reportConnect success returnCode => exact (mannered_reportConnect success returnCode popped).courteous
  | _ => exact plain (by simp [workTopics])

theorem courteous_call {c : Call} (courteous : s.Courteous) (allowed : s.idle = true ∨ c.anyThread = true)
    (prompt : s.Prompt (.call c)) : (s.call c).Courteous := by
  rcases allowed with idle | posts
  · have mannered := mannered_idle courteous idle
    cases c with
    | asyncConnect callback => exact courteous_asyncConnect s callback courteous
    | handlePacket data =>
      rcases packet_outline data with ⟨few, -⟩ | ⟨same, answer⟩
      · refine (mannered_does (does_call s (.handlePacket data)) (fun connect => ?_) mannered).courteous
        exact absurd (few connect) (by decide)
      · change (s.handlePacket s.attempts data).Courteous
        rw [same]
        refine (mannered_handleConnack data mannered fun accepted => ?_).courteous
        have reached : s.accepting (.call (.handlePacket data)) = some s.attempts →
            s.net.closed = true ∨ ¬ s.net.Between := prompt_accepting prompt
        refine reached ?_
        simp [accepting, answer, accepted]
    | _ => exact (mannered_does (does_call s _) (by simp [callTopics]) mannered).courteous
  · exact courteous_posts posts courteous

theorem courteous_step {a : Action} (poised : s.Poised) (prompt : s.Prompt a) (taken : s.step a = some t) :
    t.Courteous := by
  obtain ⟨courteous, sustained, only, ending⟩ := poised
  obtain ⟨sane, how⟩ := steps taken
  cases how with
  | run n ran => exact Net.courteous_run courteous sustained (prompt_run prompt) ran
  | work k rest front busy => exact courteous_work courteous front prompt
  | invoke call rest front =>
    cases call with
    | connect h ec =>
      obtain ⟨attempt, rfl⟩ := only (.connect h) ((Net.owes_popped front).mpr (.inr rfl))
      refine courteous_onConnect courteous ending sane front fun success => ?_
      subst success
      exact prompt_connected front prompt
    | read h ec packet =>
      have popped := mannered_goesOn courteous front rfl
      exact (mannered_does (does_onInvoke (s.goesOn rest) (.read h ec packet))
        (by simp [invocationTopics]) popped).courteous
    | write serial h ec =>
      have popped := mannered_goesOn courteous front rfl
      have recorded : Mannered { s with net := (s.goesOn rest).net.recordCall (.write serial h ec) } :=
        popped.aside (Net.aside_of_fields rfl rfl id rfl (.inl rfl) rfl (.inl rfl))
      refine (mannered_does (does_onInvoke _ (.write serial h ec)) ?_ recorded).courteous
      cases h <;> simp [invocationTopics]
    | closed h => exact (mannered_goesOn courteous front rfl).courteous
  | afterWrite ec rest front =>
    have popped := mannered_goesOn courteous front rfl
    exact Net.courteous_afterWrite popped.courteous (fun closed => (sustained.shut closed).1) popped.landed ec
  | closeHandler rest front =>
    have popped := mannered_goesOn courteous front rfl
    refine (Net.aside_push popped.landed fun entry among => ?_).courteous popped.courteous
    obtain ⟨h, -, rfl⟩ := List.mem_map.mp among
    rfl
  | ret rest front => exact (mannered_goesOn courteous front rfl).courteous
  | call c allowed => exact courteous_call courteous allowed prompt
  | kernel event n moved =>
    obtain ⟨tasks, aside⟩ := Net.aside_kernel moved
    exact aside.courteous courteous
  | expire index w waiting due => exact (Net.aside_post ⟨rfl, rfl, rfl⟩).courteous courteous
  | advance ms => exact courteous

theorem poised_step {a : Action} (poised : s.Poised) (prompt : s.Prompt a) (taken : s.step a = some t) : t.Poised :=
  ⟨courteous_step poised prompt taken, sustained_step poised.sustained taken, proper_step poised.only taken,
    ending_step poised.ending taken⟩

theorem poised_start : Poised {} := by
  refine ⟨Net.courteous_start, Net.sustained_start, fun p owes => ?_, nofun⟩
  simp [Net.Owes] at owes

/-- `async_subscribe` is called while the TCP connect goes on, so that its frame is on its way when the
connect is through. -/
def subscribeWhileConnecting : List Action :=
  [.call (.asyncConnect true), .kernel (.resolve 0 (.ok 0)), .run, .call (.asyncSubscribe [0x74] 0 true),
    .kernel (.connect 0 none), .run, .exec, .run, .exec, .run, .kernel (.send 0 8)]

end Sys
end LiteMqtt
