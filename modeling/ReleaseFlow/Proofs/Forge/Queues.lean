import Mathlib.Data.List.Induction
import Mathlib.Data.Nat.Find
import ReleaseFlow.Forge.Memory

/-!
# Queued answers

The answers of a queue are numbered from `0`. They are its entries in order, and the last entry
repeats.

* `Memory.nth`, `Memory.after`: an answer by its number, and the queue after some answers;
* `takeNext_after`: **reading a queue again and again gives its answers in order**;
* `Memory.IsFirst`: the first answer with a property;
* `Memory.Read`, `Memory.place`: reads of a queue into which entries are pushed all the while, and
  how they move along the entries;
* `InOrder.push`, `InOrder.read`: **every read gives the entry at its place**.
-/

namespace ReleaseFlow.Memory

variable {α : Type} (queue : List α)

/-- Answer `k`: the last entry repeats. -/
def nth (k : ℕ) : Option α :=
  queue[min k (queue.length - 1)]?

/-- The queue after `k` answers: its last entry stays. -/
def after (k : ℕ) : List α :=
  queue.drop (min k (queue.length - 1))

theorem after_zero : after queue 0 = queue := by
  simp [after]

theorem takeNext_eq (l : List α) :
    takeNext l = (l.head?, if l.length ≤ 1 then l else l.tail) := by
  rcases l with _ | ⟨a, _ | ⟨b, rest⟩⟩ <;> simp [takeNext]

theorem takeNext_drop (k : ℕ) : takeNext (queue.drop k) =
    (queue[k]?, queue.drop (if k + 1 < queue.length then k + 1 else k)) := by
  rw [takeNext_eq, List.head?_drop, List.tail_drop, List.length_drop]
  congr 1
  by_cases hk : k + 1 < queue.length
  · rw [if_neg (by omega), if_pos hk]
  · rw [if_pos (by omega), if_neg hk]

theorem reply_run (repository : Repository) (id : UInt64) (m : Memory) :
    reply repository (.run id) m = ((takeNext m.states).1.elim
      (.error (.api 404 ("Run " ++ Text.decimal id.toNat ++ " not found"))) .ok,
        { m with states := (takeNext m.states).2 }) := by
  rcases hstates : m.states with _ | ⟨run, _ | ⟨next, rest⟩⟩
  · simp only [reply, hstates, takeNext, Option.elim_none]
    rw [← hstates]
  · simp only [reply, hstates, takeNext, Option.elim_some]
  · simp only [reply, hstates, takeNext, Option.elim_some]

/-- **Reading a queue again and again gives its answers in order.** -/
theorem takeNext_after (k : ℕ) : takeNext (after queue k) = (nth queue k, after queue (k + 1)) := by
  rw [after, takeNext_drop, nth, after]
  congr 2
  split <;> omega

theorem takeNext_suffix (l : List α) : (takeNext l).2 <:+ l := by
  rw [takeNext_eq]
  dsimp only
  split
  · exact List.suffix_rfl
  · exact List.tail_suffix l

theorem mem_of_takeNext {l : List α} {a : α} (h : (takeNext l).1 = some a) : a ∈ l := by
  rw [takeNext_eq] at h
  exact List.mem_of_mem_head? h

theorem nth_eq_none_iff (k : ℕ) : nth queue k = none ↔ queue = [] := by
  rw [nth, List.getElem?_eq_none_iff, ← List.length_eq_zero_iff]
  omega

/-- Answer `n` is `a`, and it is the first answer with the property. -/
structure IsFirst (queue : List α) (p : α → Prop) (n : ℕ) (a : α) : Prop where
  answer : nth queue n = some a
  holds : p a
  before : ∀ k < n, ∀ b, nth queue k = some b → ¬ p b

theorem exists_isFirst {queue : List α} (p : α → Prop) {k : ℕ} {a : α}
    (hk : nth queue k = some a) (ha : p a) : ∃ n ≤ k, ∃ b, IsFirst queue p n b := by
  classical
  have h : ∃ n, ∃ b, nth queue n = some b ∧ p b := ⟨k, a, hk, ha⟩
  obtain ⟨b, hb, hp⟩ := Nat.find_spec h
  exact ⟨Nat.find h, Nat.find_min' h ⟨a, hk, ha⟩, b, hb, hp,
    fun j hj c hc hpc => Nat.find_min h hj ⟨c, hc, hpc⟩⟩

/-! ## Reads between pushes -/

/-- A read of a queue: how many entries had been pushed until then, and the reply. -/
structure Read (α : Type) where
  queued : ℕ
  reply : Except Failure α

/-- The place of the read after this one, which was at place `p`: one further if a later entry had
been pushed. -/
def Read.next (p : ℕ) (r : Read α) : ℕ :=
  if p + 1 < r.queued then p + 1 else p

/-- The place of the next read, after some reads. -/
def place (reads : List (Read α)) : ℕ :=
  reads.foldl Read.next 0

/-- The read gave the entry at a place, which had been pushed. -/
def Read.Gives (entries : List α) (p : ℕ) (r : Read α) : Prop :=
  p < r.queued ∧ ∃ entry, entries[p]? = some entry ∧ r.reply = .ok entry

theorem place_concat (reads : List (Read α)) (r : Read α) :
    place (reads ++ [r]) = r.next (place reads) := by
  rw [place, List.foldl_append]
  rfl

theorem place_take_succ {reads : List (Read α)} {k : ℕ} {r : Read α} (h : reads[k]? = some r) :
    place (reads.take (k + 1)) = r.next (place (reads.take k)) := by
  rw [List.take_add_one, h, Option.toList_some, place_concat]

theorem Read.Gives.append {entries : List α} {p : ℕ} {r : Read α} (h : r.Gives entries p)
    (later : List α) : r.Gives (entries ++ later) p := by
  obtain ⟨hp, entry, hentry, hreply⟩ := h
  have hlt : p < entries.length := (List.getElem?_eq_some_iff.1 hentry).1
  exact ⟨hp, entry, by rw [List.getElem?_append_left hlt, hentry], hreply⟩

/-- A queue holds the entries from the place of the next read on. Each read that came after a push
gave the entry at its place. -/
structure InOrder (queue entries : List α) (reads : List (Read α)) : Prop where
  queue_eq : queue = entries.drop (place reads)
  place_le : place reads ≤ entries.length - 1
  gives : ∀ k (r : Read α), reads[k]? = some r → 0 < r.queued →
    r.Gives entries (place (reads.take k))

namespace InOrder

variable {queue entries : List α} {reads : List (Read α)}

theorem nil : InOrder ([] : List α) [] [] :=
  ⟨rfl, le_rfl, fun k r hr => by simp at hr⟩

theorem push (h : InOrder queue entries reads) (entry : α) :
    InOrder (queue ++ [entry]) (entries ++ [entry]) reads := by
  obtain ⟨rfl, hplace, hgives⟩ := h
  refine ⟨?_, ?_, fun k r hr hpos => (hgives k r hr hpos).append [entry]⟩
  · rw [List.drop_append_of_le_length (by omega)]
  · rw [List.length_append]
    omega

theorem read (h : InOrder queue entries reads) {reply : Except Failure α}
    (hfront : ∀ entry, (takeNext queue).1 = some entry → reply = .ok entry) :
    InOrder (takeNext queue).2 entries (reads ++ [⟨entries.length, reply⟩]) := by
  obtain ⟨rfl, hplace, hgives⟩ := h
  rw [takeNext_drop] at hfront ⊢
  refine ⟨?_, ?_, fun k r hr hpos => ?_⟩
  · rw [place_concat, Read.next]
  · rw [place_concat, Read.next]
    dsimp only
    split <;> omega
  · have hlast : k < reads.length + 1 := by simpa using (List.getElem?_eq_some_iff.1 hr).1
    rcases Nat.lt_succ_iff_lt_or_eq.1 hlast with hk | rfl
    · rw [List.getElem?_append_left hk] at hr
      rw [List.take_append_of_le_length (Nat.le_of_lt hk)]
      exact hgives k r hr hpos
    · -- the new read: all others came before it
      obtain rfl : ⟨entries.length, reply⟩ = r := by simpa using hr
      have hlt : place reads < entries.length := by
        dsimp only at hpos
        omega
      rw [List.take_left]
      exact ⟨hlt, entries[place reads], List.getElem?_eq_getElem hlt,
        hfront _ (List.getElem?_eq_getElem hlt)⟩

end InOrder

/-- Reads after the last push come to the last entry and stay there. -/
theorem place_of_queued {n : ℕ} {reads : List (Read α)} (h : ∀ r ∈ reads, r.queued = n) :
    place reads = min reads.length (n - 1) := by
  induction reads using List.reverseRecOn with
  | nil => simp [place]
  | append_singleton reads r ih =>
    have hr : r.queued = n := h r (by simp)
    rw [place_concat, ih fun r' hr' => h r' (List.mem_append_left _ hr'), Read.next, hr,
      List.length_append, List.length_singleton]
    split <;> omega

end ReleaseFlow.Memory
