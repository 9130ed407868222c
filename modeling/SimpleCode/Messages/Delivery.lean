import SimpleCode.Messages.MessageQueue

set_option autoImplicit false

namespace SimpleCode.Messages

open Foundations Fifo

def Expected (queue : MessageQueue) : Thread → Prop
  | .idle => True
  | .running (.enqueue m) call => m.length = sizeT queue.size ∧
      (call = .write m (afterWrite queue) ∨ ∃ message, message.take (sizeT queue.size) = m ∧
        call = .select fun ret =>
          if Int32.ofInt ret < 0 then .ret (-1) else enqueueWrite queue message)
  | .running .dequeue call => call = dequeueRead queue ∨
      call = .select fun ret => if Int32.ofInt ret < 0 then .ret (-1) else dequeueRead queue
  | .writing .. => False

section Thread

variable {queue : MessageQueue} {job : Job} {data : Bytes} {next : ℤ → Call}

lemma expected_write (he : Expected queue (.running job (.write data next))) :
    job = .enqueue data ∧ data.length = sizeT queue.size ∧ next = afterWrite queue := by
  cases job with
  | enqueue m =>
    obtain ⟨hm, he | ⟨message, -, he⟩⟩ := he
    · obtain ⟨rfl, rfl⟩ := Call.write.inj he
      exact ⟨rfl, hm, rfl⟩
    · cases he
  | dequeue => obtain he | he := he <;> cases he

lemma expected_writing {done : ℕ} (he : Expected queue (.writing job data done next)) : False := he

lemma expected_read {count : ℕ} (he : Expected queue (.running job (.read count next))) :
    job = .dequeue ∧ count = sizeT queue.size ∧ next = afterRead queue := by
  cases job with
  | enqueue m =>
    obtain ⟨-, he | ⟨message, -, he⟩⟩ := he
    · cases he
    · cases he
  | dequeue =>
    obtain he | he := he
    · obtain ⟨rfl, rfl⟩ := Call.read.inj he
      exact ⟨rfl, rfl, rfl⟩
    · cases he

end Thread

/-- Waiting messages of the right size fill the pipe, and the threads stand where they should. -/
structure Framed (queue : MessageQueue) (s : System) : Prop where
  fifo : ∃ waiting, replay (s.log.filterMap Event.action) = some waiting ∧
    s.pipe = waiting.flatten ∧ ∀ m ∈ waiting, m.length = sizeT queue.size
  failed : ∀ e ∈ s.log, ∀ message, e.job = .enqueue message → e.result ≠ 0 → e.moved = []
  threads : ∀ t, Expected queue (s.threads t)

variable {limits : PipeLimits} {queue : MessageQueue} {s : System} {t : ℕ}

lemma Framed.faithful (h : Framed queue s) : Faithful s := by
  obtain ⟨waiting, hw, hp, -⟩ := h.fifo
  exact ⟨⟨waiting, hw, hp⟩, h.failed⟩

theorem Faithful.in_order (h : Faithful s) :
    takes (s.log.filterMap Event.action) <+: puts (s.log.filterMap Event.action) := by
  obtain ⟨waiting, hw, -⟩ := h.fifo
  exact ⟨waiting, (puts_eq_takes_append hw).symm⟩

lemma Framed.start : Framed queue .start :=
  ⟨⟨[], rfl, rfl, by simp⟩, by simp [System.start], fun _ => trivial⟩

lemma expected_update (h : Framed queue s) {thread : Thread} (ht : Expected queue thread) (u : ℕ) :
    Expected queue (Function.update s.threads t thread u) := by
  by_cases hu : u = t
  · subst hu
    rwa [Function.update_self]
  · rw [Function.update_of_ne hu]
    exact h.threads u

lemma Framed.running (h : Framed queue s) {job : Job} {call : Call} (moved : Bytes)
    (hc : Expected queue (.running job call)) (hr : ∀ value, call ≠ .ret value) :
    Framed queue (s.resume t job moved call) := by
  cases call with
  | ret value => exact absurd rfl (hr value)
  | select next => exact ⟨h.fifo, h.failed, expected_update h hc⟩
  | write data next => exact ⟨h.fifo, h.failed, expected_update h hc⟩
  | read count next => exact ⟨h.fifo, h.failed, expected_update h hc⟩

lemma log_failed (h : Framed queue s) {e : Event}
    (he : ∀ message, e.job = .enqueue message → e.result ≠ 0 → e.moved = []) :
    ∀ e' ∈ s.log ++ [e], ∀ message, e'.job = .enqueue message → e'.result ≠ 0 → e'.moved = [] := by
  intro e' he'
  obtain he' | he' := List.mem_append.mp he'
  · exact h.failed e' he'
  · exact List.mem_singleton.mp he' ▸ he

lemma Framed.refused (h : Framed queue s) (job : Job) :
    Framed queue (s.resume t job [] (.ret (-1))) := by
  have haction : Event.action ⟨job, [], -1⟩ = none := by
    cases job <;> simp [Event.action]
  refine ⟨?_, log_failed h fun _ _ _ => rfl, expected_update h trivial⟩
  simp only [System.resume, List.filterMap_append, List.filterMap_cons_none haction,
    List.filterMap_nil, List.append_nil]
  exact h.fifo

section Size

variable (hs : 1 ≤ queue.size.toInt) (hl : queue.size.toInt ≤ limits.pipeBuf)

include hs

lemma sizeT_eq : (sizeT queue.size : ℤ) = queue.size.toInt := by
  have hlt := queue.size.toInt_lt
  unfold sizeT
  omega

lemma ofInt_sizeT : Int32.ofInt (sizeT queue.size) = queue.size := by
  rw [sizeT_eq hs, Int32.ofInt_toInt]

lemma ofInt_error : Int32.ofInt (-1) ≠ queue.size := by
  intro h
  rw [← h] at hs
  exact absurd hs (by decide)

lemma Framed.put (h : Framed queue s) {m : Bytes} (hm : m.length = sizeT queue.size) :
    Framed queue ({ s with pipe := s.pipe ++ m }.resume t (.enqueue m) m
      (afterWrite queue m.length)) := by
  obtain ⟨waiting, hw, hp, hlen⟩ := h.fifo
  have hret : afterWrite queue m.length = .ret 0 := by
    simp only [afterWrite, hm, ofInt_sizeT hs, ne_eq, not_true_eq_false, if_false]
  rw [hret]
  refine ⟨⟨waiting ++ [m], ?_, ?_, ?_⟩, log_failed h ?_, expected_update h trivial⟩
  · have hput := replay_put hw m
    simpa [System.resume, Event.action] using hput
  · simp [System.resume, hp]
  · intro x hx
    obtain hx | hx := List.mem_append.mp hx
    · exact hlen x hx
    · exact List.mem_singleton.mp hx ▸ hm
  · intro _ _ hne
    exact absurd rfl hne

lemma Framed.take (h : Framed queue s) (hne : s.pipe ≠ []) :
    Framed queue ({ s with pipe := s.pipe.drop (sizeT queue.size) }.resume t .dequeue
      (s.pipe.take (sizeT queue.size))
      (afterRead queue (s.pipe.take (sizeT queue.size)).length)) := by
  obtain ⟨waiting, hw, hp, hlen⟩ := h.fifo
  cases waiting with
  | nil => exact absurd hp hne
  | cons m waiting =>
    have hm : m.length = sizeT queue.size := hlen m (by simp)
    have htake : s.pipe.take (sizeT queue.size) = m := by
      rw [hp, List.flatten_cons, ← hm, List.take_left]
    have hdrop : s.pipe.drop (sizeT queue.size) = waiting.flatten := by
      rw [hp, List.flatten_cons, ← hm, List.drop_left]
    have hret : afterRead queue m.length = .ret queue.size := by
      simp only [afterRead, hm, ofInt_sizeT hs, ne_eq, not_true_eq_false, if_false]
    have hsize : queue.size ≠ -1 := Ne.symm (ofInt_error hs)
    rw [htake, hdrop, hret]
    refine ⟨⟨waiting, ?_, rfl, fun x hx => hlen x (by simp [hx])⟩, log_failed h ?_,
      expected_update h trivial⟩
    · have htaken := replay_take hw
      simpa [System.resume, Event.action, hsize] using htaken
    · intro _ he
      cases he

include hl

theorem Framed.step {s' : System} (h : Framed queue s) (hstep : Step limits queue s s') :
    Framed queue s' := by
  cases hstep with
  | @callEnqueue t message usec _ hlen =>
    have hm : (message.take (sizeT queue.size)).length = sizeT queue.size := by simpa using hlen
    by_cases hu : usec = 0
    · have hcall : messageQueueEnqueue (some queue) message usec = enqueueWrite queue message := by
        simp [messageQueueEnqueue, hu]
      rw [hcall]
      exact h.running [] ⟨hm, .inl rfl⟩ fun _ => Call.noConfusion
    · have hcall : messageQueueEnqueue (some queue) message usec = .select fun ret =>
          if Int32.ofInt ret < 0 then .ret (-1) else enqueueWrite queue message := by
        simp [messageQueueEnqueue, hu]
      rw [hcall]
      exact h.running [] ⟨hm, .inr ⟨message, rfl, rfl⟩⟩ fun _ => Call.noConfusion
  | callDequeue usec _ =>
    by_cases hu : usec = 0
    · have hcall : messageQueueDequeue (some queue) usec = dequeueRead queue := by
        simp [messageQueueDequeue, hu]
      rw [hcall]
      exact h.running [] (.inl rfl) fun _ => Call.noConfusion
    · have hcall : messageQueueDequeue (some queue) usec = .select fun ret =>
          if Int32.ofInt ret < 0 then .ret (-1) else dequeueRead queue := by
        simp [messageQueueDequeue, hu]
      rw [hcall]
      exact h.running [] (.inr rfl) fun _ => Call.noConfusion
  | @select t job next ret ht =>
    have he := h.threads t
    rw [ht] at he
    cases job with
    | enqueue m =>
      obtain ⟨hm, he | ⟨message, hmessage, he⟩⟩ := he
      · cases he
      · obtain rfl := Call.select.inj he
        dsimp only
        split_ifs
        · exact h.refused _
        · exact h.running [] ⟨hm, .inl (by rw [enqueueWrite, hmessage])⟩ fun _ => Call.noConfusion
    | dequeue =>
      obtain he | he := he
      · cases he
      · obtain rfl := Call.select.inj he
        dsimp only
        split_ifs
        · exact h.refused _
        · exact h.running [] (.inl rfl) fun _ => Call.noConfusion
  | writeAll ht hd hc =>
    obtain ⟨rfl, hlen, rfl⟩ := expected_write (ht ▸ h.threads _)
    exact h.put hs hlen
  | writeNone ht =>
    obtain ⟨rfl, hlen, rfl⟩ := expected_write (ht ▸ h.threads _)
    rw [afterWrite, if_pos (ofInt_error hs)]
    exact h.refused _
  | writeBegin ht hd =>
    obtain ⟨rfl, hlen, rfl⟩ := expected_write (ht ▸ h.threads _)
    have hn := sizeT_eq hs
    omega
  | writeSome k ht hd hc => exact (expected_writing (ht ▸ h.threads _)).elim
  | writeEnd ht => exact (expected_writing (ht ▸ h.threads _)).elim
  | readSome ht hp =>
    obtain ⟨rfl, rfl, rfl⟩ := expected_read (ht ▸ h.threads _)
    have hn := sizeT_eq hs
    exact h.take hs (hp.resolve_right (by omega))
  | readNone ht =>
    obtain ⟨rfl, rfl, rfl⟩ := expected_read (ht ▸ h.threads _)
    rw [afterRead, if_pos (ofInt_error hs)]
    exact h.refused _

theorem Framed.run (hr : Reachable limits queue s) : Framed queue s := by
  induction hr with
  | refl => exact .start
  | tail _ hstep ih => exact ih.step hs hl hstep

end Size

/-- With size zero a message can be taken from the queue that nobody has put in. -/
lemma phantom_message (limits : PipeLimits) (hz : queue.size = 0) :
    ∃ s, Reachable limits queue s ∧ ¬ Faithful s := by
  have hn : sizeT queue.size = 0 := by
    rw [hz]
    decide
  have hret : afterRead queue 0 = .ret queue.size := by
    rw [afterRead, hz]
    rfl
  set s := System.start.resume 0 .dequeue [] (messageQueueDequeue (some queue) 0) with hs
  have hcall : Step limits queue .start s := .callDequeue 0 rfl
  have hthread : s.threads 0 = .running .dequeue (.read 0 (afterRead queue)) := by
    have hcall : messageQueueDequeue (some queue) 0 = .read 0 (afterRead queue) := by
      simp [messageQueueDequeue, dequeueRead, hn]
    rw [hs, hcall]
    exact Function.update_self 0 _ System.start.threads
  have hread : Step limits queue s _ := .readSome hthread (.inr rfl)
  refine ⟨_, (Relation.ReflTransGen.single hcall).tail hread, fun hf => ?_⟩
  have hlog : s.log = [] := rfl
  obtain ⟨waiting, hw, -⟩ := hf.fifo
  simp [System.resume, hret, hz, Event.action, hlog, replay, act] at hw

lemma sizeT_long (limits : PipeLimits) (hne : queue.size ≠ 0)
    (hlong : ¬ (1 ≤ queue.size.toInt ∧ queue.size.toInt ≤ limits.pipeBuf)) :
    limits.pipeBuf < sizeT queue.size ∧ queue.size.toInt ≠ 1 := by
  have hlt := limits.pipeBuf_lt
  have hpos := limits.pipeBuf_pos
  have hge := queue.size.le_toInt
  have hle := queue.size.toInt_lt
  have hne' : queue.size.toInt ≠ 0 := fun h => hne (Int32.toInt_inj.mp h)
  unfold sizeT
  omega

/-- A message longer than what the pipe takes at once can be cut off, and its first byte stays. -/
lemma cut_message (limits : PipeLimits) (hne : queue.size ≠ 0)
    (hlong : ¬ (1 ≤ queue.size.toInt ∧ queue.size.toInt ≤ limits.pipeBuf)) :
    ∃ s, Reachable limits queue s ∧ ¬ Faithful s := by
  obtain ⟨hbuf, hone⟩ := sizeT_long limits hne hlong
  set message : Bytes := List.replicate (sizeT queue.size) 0 with hmessage
  have hlen : message.length = sizeT queue.size := List.length_replicate
  have htake : message.take (sizeT queue.size) = message := by rw [← hlen, List.take_length]
  have hret : afterWrite queue 1 = .ret (-1) := by
    apply if_pos
    intro h
    rw [← h] at hone
    exact hone rfl
  set s₁ := System.start.resume 0 (.enqueue (message.take (sizeT queue.size))) []
    (messageQueueEnqueue (some queue) message 0) with hs₁
  have hcall : Step limits queue .start s₁ := .callEnqueue message 0 rfl hlen.ge
  have hthread₁ : s₁.threads 0 = .running (.enqueue message) (.write message (afterWrite queue)) := by
    rw [hs₁, htake]
    simp [messageQueueEnqueue, enqueueWrite, htake, System.resume]
  set s₂ : System := ⟨s₁.pipe, Function.update s₁.threads 0
    (.writing (.enqueue message) message 0 (afterWrite queue)), s₁.log⟩ with hs₂
  have hbegin : Step limits queue s₁ s₂ := .writeBegin hthread₁ (hlen ▸ hbuf)
  have hthread₂ : s₂.threads 0 = .writing (.enqueue message) message 0 (afterWrite queue) :=
    Function.update_self 0 _ s₁.threads
  have hpipe : s₂.pipe = [] := rfl
  set s₃ : System := ⟨s₂.pipe ++ (message.drop 0).take 1, Function.update s₂.threads 0
    (.writing (.enqueue message) message (0 + 1) (afterWrite queue)), s₂.log⟩ with hs₃
  have hpos := limits.pipeBuf_pos
  have hle := limits.pipeBuf_le
  have hsome : Step limits queue s₂ s₃ :=
    .writeSome 1 hthread₂ (by omega) (by simp only [hpipe, List.length_nil]; omega)
  have hthread₃ : s₃.threads 0 = .writing (.enqueue message) message 1 (afterWrite queue) :=
    Function.update_self 0 _ s₂.threads
  have hend : Step limits queue s₃ _ := .writeEnd hthread₃
  refine ⟨_, ((((Relation.ReflTransGen.single hcall).tail hbegin).tail hsome).tail hend),
    fun hf => ?_⟩
  simp only [one_ne_zero, if_false, Nat.cast_one, hret] at hf
  have hfailure : (-1 : Int32) ≠ 0 := by decide
  have hmoved := hf.failed ⟨.enqueue message, message.take 1, -1⟩ (by simp [System.resume]) message
    rfl hfailure
  simp only [hmessage, List.take_eq_nil_iff, List.replicate_eq_nil_iff, one_ne_zero, false_or]
    at hmoved
  omega

/-- The queue is faithful in every run exactly if its messages have a byte at least and fit into
one write. -/
theorem faithful_iff (limits : PipeLimits) (messageSize : Int32) :
    ∃ queue, messageQueueCreate messageSize true true = some queue ∧
      ((∀ s, Reachable limits queue s → Faithful s) ↔
        1 ≤ messageSize.toInt ∧ messageSize.toInt ≤ limits.pipeBuf) := by
  refine ⟨⟨messageSize⟩, rfl, ?_⟩
  constructor
  · intro h
    by_contra hsize
    by_cases hz : messageSize = 0
    · obtain ⟨s, hs, hnot⟩ := phantom_message limits (show (MessageQueue.mk messageSize).size = 0 from hz)
      exact hnot (h s hs)
    · obtain ⟨s, hs, hnot⟩ := cut_message limits
        (show (MessageQueue.mk messageSize).size ≠ 0 from hz) hsize
      exact hnot (h s hs)
  · rintro ⟨hs, hl⟩ s hr
    exact (Framed.run hs hl hr).faithful

def linuxPipe : PipeLimits := ⟨4096, 65536, by decide, by decide, by decide⟩

theorem long_message_cut :
    ¬ ∀ (limits : PipeLimits) (messageSize : Int32) (malloc pipe : Bool) (queue : MessageQueue),
      messageQueueCreate messageSize malloc pipe = some queue →
      ∀ s, Reachable limits queue s → Faithful s := by
  intro h
  obtain ⟨s, hs, hnot⟩ := cut_message linuxPipe (show (MessageQueue.mk 8192).size ≠ 0 by decide)
    (by decide)
  exact hnot (h linuxPipe 8192 true true ⟨8192⟩ rfl s hs)

end SimpleCode.Messages
