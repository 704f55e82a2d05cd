import ReleaseFlow.Proofs.Forge.Queues
import ReleaseFlow.Proofs.Session.History

/-!
# Queued answers in a session

Answers about runs are pushed into queues, and questions read them, in any order and with anything
else between them.

* `Queue`: the two queues of a service in memory, what is pushed into them and what reads them;
* `Queue.pushed`, `Queue.reads`: the entries that were pushed in a history, and its reads;
* `Queue.Moves`, `Queue.moves_deed`: what one deed does to a queue;
* `Queue.inOrder_after`: a queue and its history, after any deeds;
* `queued_answers_in_order`: **reads give the entries in the order of the pushes, and go on as soon
  as there is a later one**.
-/

namespace ReleaseFlow.Session

open Memory (Read InOrder place place_of_queued place_take_succ takeNext)

/-- The queues of answers to come: about the runs of a workflow, and about a single run. -/
inductive Queue where
  | listings
  | states

namespace Queue

/-- What is queued. -/
abbrev Entry : Queue → Type
  | listings => List WorkflowRun
  | states => WorkflowRun

/-- The kind of question that reads the queue. -/
def operation : Queue → Forge.Operation
  | listings => .runs
  | states => .run

/-- What the queue holds. -/
def entries : (u : Queue) → Memory → List u.Entry
  | listings, m => m.listings
  | states, m => m.states

/-- A read finds nothing and changes nothing. -/
def Blank : Queue → Memory → Prop
  | listings, m => ∀ repository workflow since,
    Memory.answer ⟨repository, .runs workflow since⟩ m = (.ok [], m)
  | states, m => ∀ repository id, Memory.answer ⟨repository, .run id⟩ m =
    (.error (.api 404 ("Run " ++ Text.decimal id.toNat ++ " not found")), m)

variable {u : Queue} {m : Memory}

theorem blank_of_nil (hop : u.operation ∉ m.failing) (hnil : u.entries m = []) : u.Blank m := by
  cases u with
  | listings =>
    intro repository workflow since
    have hlistings : m.listings = [] := hnil
    rw [Memory.answer_of_not_failing hop, Memory.reply, hlistings, takeNext, ← hlistings]
    rfl
  | states =>
    intro repository id
    have hstates : m.states = [] := hnil
    rw [Memory.answer_of_not_failing hop]
    simp only [Memory.reply, hstates, takeNext]

/-! ## Pushes and reads of a history -/

/-- The entry that was pushed. -/
def entry? : (u : Queue) → Happening → Option u.Entry
  | listings, .setup (.listing runs) => some runs
  | states, .setup (.state run) => some run
  | _, _ => none

/-- The reply to a read. -/
def reply? : (u : Queue) → Happening → Option (Except Failure u.Entry)
  | listings, .answer ⟨_, .runs _ _⟩ reply => some reply
  | states, .answer ⟨_, .run _⟩ reply => some reply
  | _, _ => none

/-- The entries that were pushed, the first one first. -/
def pushed (u : Queue) (past : List Happening) : List u.Entry :=
  past.filterMap u.entry?

/-- The reads, the first one first, when some entries had been pushed before. -/
def readsFrom (u : Queue) : ℕ → List Happening → List (Read u.Entry)
  | _, [] => []
  | queued, h :: later =>
    ((u.reply? h).map (Read.mk queued)).toList ++
      readsFrom u (queued + (u.entry? h).toList.length) later

/-- The reads, the first one first. -/
def reads (u : Queue) (past : List Happening) : List (Read u.Entry) :=
  u.readsFrom 0 past

theorem pushed_concat (past : List Happening) (h : Happening) :
    u.pushed (past ++ [h]) = u.pushed past ++ (u.entry? h).toList := by
  rw [pushed, pushed, List.filterMap_append]
  cases hentry : u.entry? h <;> simp [hentry]

theorem readsFrom_append (queued : ℕ) (past later : List Happening) :
    u.readsFrom queued (past ++ later) =
      u.readsFrom queued past ++ u.readsFrom (queued + (u.pushed past).length) later := by
  induction past generalizing queued with
  | nil => rfl
  | cons h past ih =>
    have hlength : (u.pushed (h :: past)).length =
        (u.entry? h).toList.length + (u.pushed past).length := by
      rw [pushed, List.filterMap_cons]
      cases u.entry? h with
      | none => simp [pushed]
      | some e => simp [pushed, Nat.add_comm]
    rw [List.cons_append, readsFrom, readsFrom, ih, hlength, List.append_assoc, Nat.add_assoc]

theorem reads_concat (past : List Happening) (h : Happening) : u.reads (past ++ [h]) =
    u.reads past ++ ((u.reply? h).map (Read.mk (u.pushed past).length)).toList := by
  rw [reads, readsFrom_append, Nat.zero_add, readsFrom, readsFrom, List.append_nil]
  rfl

/-! ## What a deed does to a queue -/

/-- What happens moves a queue: an entry is pushed, or read, or nothing is done with the queue. -/
inductive Moves (u : Queue) (h : Happening) (queue : List u.Entry) : List u.Entry → Prop where
  | push {entry : u.Entry} (hentry : u.entry? h = some entry) (hreply : u.reply? h = none) :
    Moves u h queue (queue ++ [entry])
  | read {reply : Except Failure u.Entry} (hentry : u.entry? h = none)
    (hreply : u.reply? h = some reply)
    (hfront : ∀ entry, (takeNext queue).1 = some entry → reply = .ok entry) :
    Moves u h queue (takeNext queue).2
  | pass (hentry : u.entry? h = none) (hreply : u.reply? h = none) : Moves u h queue queue

theorem moves_setup (u : Queue) (m : Memory) (s : Memory.Setup) :
    u.Moves (.setup s) (u.entries m) (u.entries (s.apply m)) := by
  cases u with
  | listings =>
    cases s with
    | listing runs => exact .push rfl rfl
    | _ => exact .pass rfl rfl
  | states =>
    cases s with
    | state run => exact .push rfl rfl
    | _ => exact .pass rfl rfl

theorem entry?_answer (u : Queue) (c : Forge.Call) (reply : Except Failure c.query.Answer) :
    u.entry? (.answer c reply) = none := by
  cases u <;> rfl

theorem reply?_of_ne {c : Forge.Call} (h : c.query.operation ≠ u.operation)
    (reply : Except Failure c.query.Answer) : u.reply? (.answer c reply) = none := by
  obtain ⟨repository, q⟩ := c
  cases u with
  | listings =>
    cases q with
    | runs workflow since => exact absurd rfl h
    | _ => rfl
  | states =>
    cases q with
    | run id => exact absurd rfl h
    | _ => rfl

theorem entries_of_change {op : Forge.Operation} {m' : Memory} (h : Memory.Change op m m')
    (hop : op ≠ u.operation) : u.entries m' = u.entries m := by
  cases h with
  | listed hruns =>
    cases u with
    | listings => exact absurd hruns hop
    | states => rfl
  | told hrun =>
    cases u with
    | listings => rfl
    | states => exact absurd hrun hop
  | _ => cases u <;> rfl

theorem moves_read (hop : u.operation ∉ m.failing) {c : Forge.Call}
    (hc : c.query.operation = u.operation) :
    u.Moves (.answer c (Memory.answer c m).1) (u.entries m) (u.entries (Memory.answer c m).2) := by
  obtain ⟨repository, q⟩ := c
  rw [Memory.answer_of_not_failing (hc ▸ hop)]
  cases u with
  | listings =>
    cases q with
    | runs workflow since =>
      refine .read rfl rfl fun entry hentry => ?_
      change Except.ok ((takeNext m.listings).1.getD []) = _
      rw [show (takeNext m.listings).1 = some entry from hentry, Option.getD_some]
    | _ => cases hc
  | states =>
    cases q with
    | run id =>
      rw [Memory.reply_run]
      refine .read rfl rfl fun entry hentry => ?_
      change (takeNext m.states).1.elim _ _ = _
      rw [show (takeNext m.states).1 = some entry from hentry, Option.elim_some]
    | _ => cases hc

theorem moves_deed (hop : u.operation ∉ m.failing) (d : Deed) :
    u.Moves (d.happens m) (u.entries m) (u.entries (d.apply m)) := by
  cases d with
  | setup s => exact u.moves_setup m s
  | ask c =>
    by_cases hc : c.query.operation = u.operation
    · exact moves_read hop hc
    · rw [Deed.apply, entries_of_change (Memory.answer_change c m) hc]
      exact .pass (u.entry?_answer c _) (reply?_of_ne hc _)

/-! ## Queues and their histories -/

theorem inOrder_moves {queue later : List u.Entry} {past : List Happening} {h : Happening}
    (ho : InOrder queue (u.pushed past) (u.reads past)) (hm : u.Moves h queue later) :
    InOrder later (u.pushed (past ++ [h])) (u.reads (past ++ [h])) := by
  cases hm with
  | push hentry hreply =>
    rw [pushed_concat, reads_concat, hentry, hreply]
    simpa using ho.push _
  | read hentry hreply hfront =>
    rw [pushed_concat, reads_concat, hentry, hreply]
    simpa using ho.read hfront
  | pass hentry hreply =>
    rw [pushed_concat, reads_concat, hentry, hreply]
    simpa using ho

/-- The history may go on from any past. -/
theorem inOrder_after {past : List Happening} {done : List Deed} (hop : u.operation ∉ m.failing)
    (hdone : .setup (.failure u.operation) ∉ done)
    (ho : InOrder (u.entries m) (u.pushed past) (u.reads past)) :
    InOrder (u.entries (after m done)) (u.pushed (past ++ history m done))
      (u.reads (past ++ history m done)) := by
  induction done generalizing m past with
  | nil => simpa [after, history] using ho
  | cons d done ih =>
    have hop' : u.operation ∉ (d.apply m).failing := fun hmem =>
      ((d.failing_apply m _).1 hmem).elim hop fun hd => hdone (hd ▸ List.mem_cons_self)
    have ho' := inOrder_moves ho (moves_deed hop d)
    -- what the deed does is part of the past of the others
    rw [history, List.append_cons]
    exact ih hop' (fun hmem => hdone (List.mem_cons_of_mem d hmem)) ho'

end Queue

/-- **Queued answers stay in order.** Deeds of any kind, as those of a session, push entries into a
queue and read it, and reading was not made to fail. A read before the first push finds nothing and
changes nothing. The first read after it gives the entry at position `0`, and each further read
gives the same entry as the one before, or the next one: the next one exactly when a later entry had
already been pushed at the read before. The queue holds what is left from there on. When all pushes
came first, read `k` gives entry `k`, or the last one when there are not so many. -/
theorem queued_answers_in_order {u : Queue} {done : List Deed}
    (hdone : .setup (.failure u.operation) ∉ done) :
    let m := after {} done
    let entries := u.pushed (history {} done)
    let reads := u.reads (history {} done)
    (entries = [] → u.Blank m) ∧
    (∃ position : ℕ → ℕ, position 0 = 0 ∧
      (∀ k (r : Read u.Entry), reads[k]? = some r →
        (0 < r.queued → r.Gives entries (position k)) ∧
        position (k + 1) = if position k + 1 < r.queued then position k + 1 else position k) ∧
      u.entries m = entries.drop (position reads.length)) ∧
    (entries ≠ [] → (∀ r ∈ reads, r.queued = entries.length) →
      ∀ k (r : Read u.Entry), reads[k]? = some r →
        r.Gives entries (min k (entries.length - 1))) := by
  intro m entries reads
  have hop : u.operation ∉ m.failing := by
    rw [failing_after]
    exact fun h => h.elim List.not_mem_nil hdone
  have hstart : InOrder (u.entries {}) (u.pushed []) (u.reads []) := by
    cases u <;> exact .nil
  have ho : InOrder (u.entries m) entries reads :=
    Queue.inOrder_after List.not_mem_nil hdone hstart
  refine ⟨fun hnil => ?_, ⟨fun k => place (reads.take k), rfl, fun k r hr =>
    ⟨ho.gives k r hr, place_take_succ hr⟩, ?_⟩, fun hne hall k r hr => ?_⟩
  · refine Queue.blank_of_nil hop ?_
    rw [ho.queue_eq, hnil, List.drop_nil]
  · change _ = entries.drop (place (reads.take reads.length))
    rw [List.take_length, ho.queue_eq]
  · have hk : k < reads.length := (List.getElem?_eq_some_iff.1 hr).1
    have hpos : 0 < r.queued := by
      rw [hall r (List.mem_of_getElem? hr)]
      exact List.length_pos_iff.2 hne
    have hplace : place (reads.take k) = min k (entries.length - 1) := by
      rw [place_of_queued fun r' hr' => hall r' (List.mem_of_mem_take hr'),
        List.length_take_of_le (Nat.le_of_lt hk)]
    exact hplace ▸ ho.gives k r hr hpos

/-- A read in vain, two entries, and a third one after the second was read twice. -/
theorem queued_answers_late :
    let push (id : UInt64) : Deed := .setup (.state { id })
    let ask : Deed := .ask ⟨⟨"acme", "notify-api"⟩, .run 1⟩
    let done := [ask, push 1, push 2, ask, ask, ask, push 3, ask, ask]
    let reads := Queue.states.reads (history {} done)
    .setup (.failure Queue.states.operation) ∉ done ∧
    ∃ position : ℕ → ℕ, (List.range 6).map position = [0, 0, 1, 1, 1, 2] ∧
      ∀ k (r : Read WorkflowRun), reads[k]? = some r → 0 < r.queued →
        r.Gives [{ id := 1 }, { id := 2 }, { id := 3 }] (position k) := by
  intro push ask done reads
  have hdone : .setup (.failure Queue.states.operation) ∉ done := by decide
  obtain ⟨-, ⟨position, h0, hstep, -⟩, -⟩ := queued_answers_in_order hdone
  refine ⟨hdone, position, ?_, fun k r hr => (hstep k r hr).1⟩
  have hnext : ∀ k p (r : Read WorkflowRun), reads[k]? = some r → position k = p →
      position (k + 1) = if p + 1 < r.queued then p + 1 else p := fun k p r hr hp =>
    hp ▸ (hstep k r hr).2
  have h1 : position 1 = 0 := hnext 0 0 _ rfl h0
  have h2 : position 2 = 1 := hnext 1 0 _ rfl h1
  have h3 : position 3 = 1 := hnext 2 1 _ rfl h2
  have h4 : position 4 = 1 := hnext 3 1 _ rfl h3
  have h5 : position 5 = 2 := hnext 4 1 _ rfl h4
  change [position 0, position 1, position 2, position 3, position 4, position 5] = _
  rw [h0, h1, h2, h3, h4, h5]

end ReleaseFlow.Session
