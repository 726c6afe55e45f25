import CodeVault.Gate
import Mathlib.Algebra.Order.BigOperators.Group.Finset
import Mathlib.Data.Fintype.BigOperators

/-!
# A crowd of threads at a gate

Any number of threads use one gate, and the value behind it, at the same time. Each reads the
counter, computes the next value, and installs it if the counter still has the value read; between
any two of these steps every other thread may have made any number of its own.

* `Acts` is one atomic step of one thread, `Step` the same step in a crowd, and `Run` a crowd after
  any number of steps in any order, with everything that was observed (`Event`);
* what a step does to the counter and to the readers inside is said once (`Acts.effect`), and so is
  what it does to those who shut the gate (`Acts.closers`);
* **the counter is the number of readers inside while the gate is open, and that number behind the
  sign once it was shut** (`Counted.step`), and whoever shut it is alone and finds it empty
  (`Closed.step`);
* from these two follows what the gate is for: nobody leaves who is not inside, nobody is let in
  after the gate was shut, and the value is taken once and under nobody's eyes (`run_safe`).
-/

namespace CodeVault

open Gate

/-! ## 1. Threads -/

/-- Who asks the gate: a caller for itself, or the guarded value for a caller. -/
inductive Asker where
  | caller
  | guarded
  deriving DecidableEq

/-- What a thread may try to do to the counter. -/
inductive Exchange where
  | enter (asker : Asker)
  | exit
  | close (asker : Asker)
  deriving DecidableEq

/-- What can be observed of a step. -/
inductive Event (α : Type) where
  | silent
  | admitted
  | refused
  | left
  | shut
  | closed (first : Bool)
  | lent (value : α)
  | took (result : Option α)
  | unmatched
  | overflowed
  deriving DecidableEq

/-- Where a thread is: nowhere; about to exchange the counter, which it saw with a value; let in,
    and about to look at the value or, without one, to leave again; waiting for the gate to drain;
    about to take the value. -/
inductive Point where
  | idle
  | exchanging (exchange : Exchange) (seen : Int)
  | looking
  | turning
  | draining (asker : Asker) (first : Bool)
  | taking (first : Bool)
  deriving DecidableEq

/-- A thread, and how many times it has entered by itself and has not begun to leave. -/
structure Thread where
  point : Point
  admissions : Nat
  deriving DecidableEq

/-- What the threads share: the guarded value, and the number of its readers, who may be handed from
    thread to thread. -/
structure Shared (α : Type) extends Guarded α where
  guards : Nat

namespace Exchange

/-- The greatest counter. -/
def maxCounter : Int := 0x7FFFFFFFFFFFFFFF

/-- The counter that an exchange installs over the one that was seen. -/
def next? : Exchange → Int → Option Int
  | enter _ => admit?
  | exit => release?
  | close _ => shut?

/-- Whether to compute the next counter overflows, which ends the operation in a panic. Leaving
    never adds to the greatest counter. -/
def overflows : Exchange → Int → Bool
  | exit, _ => false
  | _, seen => seen == maxCounter

/-- What is observed of an exchange that was made. -/
def success {α : Type} : Exchange → Event α
  | enter _ => .admitted
  | exit => .left
  | close _ => .shut

/-- Where a thread is that has made an exchange. -/
def made : Exchange → Nat → Thread
  | enter .caller, admissions => ⟨.idle, admissions + 1⟩
  | enter .guarded, admissions => ⟨.looking, admissions⟩
  | exit, admissions => ⟨.idle, admissions⟩
  | close asker, admissions => ⟨.draining asker true, admissions⟩

/-- What is observed of an exchange that the counter does not admit. -/
def refusal {α : Type} : Exchange → Event α
  | enter _ => .refused
  | exit => .unmatched
  | close _ => .silent

/-- Where a thread goes whose exchange the counter does not admit; a closer waits for the one before
    it. -/
def refused : Exchange → Point
  | close asker => .draining asker false
  | _ => .idle

end Exchange

/-- Where a closer goes when the gate has drained. -/
def Asker.drained (first : Bool) : Asker → Point
  | caller => .idle
  | guarded => .taking first

/-- One atomic step of a thread: it begins an operation by reading the counter; it makes an
    exchange, or misses it and reads the counter again, or finds that the counter does not admit it;
    it looks at the value; it waits for the gate to drain; it takes the value. -/
inductive Acts {α : Type} : Shared α → Thread → Event α → Shared α → Thread → Prop where
  | call {shared : Shared α} {n : Nat} (exchange : Exchange) (h : exchange ≠ .exit) :
      Acts shared ⟨.idle, n⟩ .silent shared ⟨.exchanging exchange shared.gate.counter, n⟩
  | leave {shared : Shared α} {n : Nat} :
      Acts shared ⟨.idle, n + 1⟩ .silent shared ⟨.exchanging .exit shared.gate.counter, n⟩
  | drop {shared : Shared α} {n guards : Nat} (h : shared.guards = guards + 1) :
      Acts shared ⟨.idle, n⟩ .silent { shared with guards }
        ⟨.exchanging .exit shared.gate.counter, n⟩
  | exchange {shared : Shared α} {n : Nat} {exchange : Exchange} {next : Int}
      (hnext : exchange.next? shared.gate.counter = some next)
      (hroom : exchange.overflows shared.gate.counter = false) :
      Acts shared ⟨.exchanging exchange shared.gate.counter, n⟩ exchange.success
        { shared with gate := ⟨next⟩ } (exchange.made n)
  | miss {shared : Shared α} {n : Nat} {exchange : Exchange} {seen : Int}
      (hnext : (exchange.next? seen).isSome) (hroom : exchange.overflows seen = false) :
      Acts shared ⟨.exchanging exchange seen, n⟩ .silent shared
        ⟨.exchanging exchange shared.gate.counter, n⟩
  | refuse {shared : Shared α} {n : Nat} {exchange : Exchange} {seen : Int}
      (hnext : exchange.next? seen = none) :
      Acts shared ⟨.exchanging exchange seen, n⟩ exchange.refusal shared ⟨exchange.refused, n⟩
  | overflow {shared : Shared α} {n : Nat} {exchange : Exchange} {seen : Int}
      (hroom : exchange.overflows seen = true) :
      Acts shared ⟨.exchanging exchange seen, n⟩ .overflowed shared ⟨.idle, n⟩
  | lend {shared : Shared α} {n : Nat} {value : α} (h : shared.value = some value) :
      Acts shared ⟨.looking, n⟩ (.lent value) { shared with guards := shared.guards + 1 } ⟨.idle, n⟩
  | lack {shared : Shared α} {n : Nat} (h : shared.value = none) :
      Acts shared ⟨.looking, n⟩ .silent shared ⟨.turning, n⟩
  | turn {shared : Shared α} {n : Nat} :
      Acts shared ⟨.turning, n⟩ .silent shared ⟨.exchanging .exit shared.gate.counter, n⟩
  | wait {shared : Shared α} {n : Nat} {asker : Asker} {first : Bool}
      (h : shared.gate.isDrained = false) :
      Acts shared ⟨.draining asker first, n⟩ .silent shared ⟨.draining asker first, n⟩
  | drain {shared : Shared α} {n : Nat} {asker : Asker} {first : Bool}
      (h : shared.gate.isDrained = true) :
      Acts shared ⟨.draining asker first, n⟩ (.closed first) shared ⟨asker.drained first, n⟩
  | take {shared : Shared α} {n : Nat} {first : Bool} :
      Acts shared ⟨.taking first, n⟩ (.took (shared.take first).1)
        { shared with value := (shared.take first).2.value } ⟨.idle, n⟩

/-! ## 2. Crowds -/

/-- Threads, each under a name, and what they share. -/
structure Crowd (ι α : Type) where
  shared : Shared α
  thread : ι → Thread

namespace Crowd

variable {ι α : Type} [DecidableEq ι]

/-- A step of a crowd is one of any of its threads. -/
inductive Step : Crowd ι α → ι × Event α → Crowd ι α → Prop where
  | act {crowd : Crowd ι α} {shared : Shared α} {thread : Thread} {event : Event α} (name : ι)
      (h : Acts crowd.shared (crowd.thread name) event shared thread) :
      Step crowd (name, event) ⟨shared, Function.update crowd.thread name thread⟩

/-- The crowd around a value, or none, that nobody has come to yet. -/
def around (value : Option α) : Crowd ι α :=
  ⟨{ Guarded.ofOption value with guards := 0 }, fun _ => ⟨.idle, 0⟩⟩

/-- A crowd after steps of its threads in some order, and what was observed of them, the latest
    first. -/
inductive Run (value : Option α) : List (ι × Event α) → Crowd ι α → Prop where
  | start : Run value [] (around value)
  | step {trace : List (ι × Event α)} {before after : Crowd ι α} {observed : ι × Event α}
      (hrun : Run value trace before) (hstep : Step before observed after) :
      Run value (observed :: trace) after

end Crowd

namespace Event

variable {α : Type}

/-- Whether the gate was shut. -/
def isShut : Event α → Bool
  | shut => true
  | _ => false

/-- Whether a close came back that had shut the gate. -/
def isFirstClose : Event α → Bool
  | closed first => first
  | _ => false

/-- Whether a closer was handed the value. -/
def handsOver : Event α → Bool
  | took result => result.isSome
  | _ => false

end Event

namespace Point

/-- How many times a thread is inside at a point. -/
def inside : Point → Nat
  | exchanging .exit _ | looking | turning => 1
  | _ => 0

/-- Whether a thread that has shut the gate waits for it to drain. -/
def waits : Point → Nat
  | draining _ true => 1
  | _ => 0

/-- Whether a thread that has shut the gate is about to take the value. -/
def takes : Point → Nat
  | taking true => 1
  | _ => 0

end Point

/-- How many times a thread is inside, readers with the value apart. -/
def Thread.inside (thread : Thread) : Nat := thread.admissions + thread.point.inside

namespace Crowd

variable {ι α : Type}

/-- How often an event was observed. -/
def count (p : Event α → Bool) (trace : List (ι × Event α)) : Nat :=
  trace.countP fun observed => p observed.2

/-- The counter of the gate. -/
def counter (crowd : Crowd ι α) : Int := crowd.shared.gate.counter

/-- The number of readers inside. -/
def readers [Fintype ι] (crowd : Crowd ι α) : Nat :=
  crowd.shared.guards + ∑ name, (crowd.thread name).inside

end Crowd

/-! ## 3. What a step does -/

theorem admit?_eq_some {current next : Int} (h : admit? current = some next) :
    0 ≤ current ∧ next = current + 1 := by
  unfold admit? at h
  split at h
  · cases h
  · rename_i hopen
    cases h
    exact ⟨Int.not_lt.1 hopen, rfl⟩

theorem shut?_eq_some {current next : Int} (h : shut? current = some next) :
    0 ≤ current ∧ next = -(current + 1) := by
  unfold shut? at h
  split at h
  · cases h
  · rename_i hopen
    cases h
    exact ⟨Int.not_lt.1 hopen, rfl⟩

theorem release?_eq_some {current next : Int} (h : release? current = some next) :
    0 < current ∧ next = current - 1 ∨ current < -1 ∧ next = current + 1 := by
  unfold release? closedCounter at h
  split at h
  · rename_i hopen
    cases h
    exact .inl ⟨hopen, rfl⟩
  · split at h
    · rename_i hclosing
      cases h
      exact .inr ⟨hclosing, rfl⟩
    · cases h

/-- **Whoever is inside can be let out**, whether the gate is open or closing. -/
theorem isSome_release? {current : Int} (h : 0 < current ∨ current < -1) :
    (release? current).isSome := by
  unfold release? closedCounter
  rcases h with hopen | hclosing
  · rw [if_pos hopen]
    rfl
  · rw [if_neg (by omega), if_pos hclosing]
    rfl

namespace Acts

variable {α : Type} {shared shared' : Shared α} {thread thread' : Thread} {event : Event α}

/-- Whether a thread is inside does not depend on what it saw of the counter. -/
theorem inside_exchanging (exchange : Exchange) (seen other : Int) :
    (Point.exchanging exchange seen).inside = (Point.exchanging exchange other).inside := by
  cases exchange <;> rfl

/-- **What a step does to the counter and to the readers inside**: it lets one in, lets one out,
    shuts the gate, lets out one who was not inside when he saw the counter, or does nothing to
    them. -/
theorem effect (h : Acts shared thread event shared' thread') :
    (event = .admitted ∧ 0 ≤ shared.gate.counter ∧ shared.gate.counter ≠ Exchange.maxCounter ∧
      shared'.gate.counter = shared.gate.counter + 1 ∧
      shared'.guards + thread'.inside = shared.guards + thread.inside + 1) ∨
    (event = .left ∧ release? shared.gate.counter = some shared'.gate.counter ∧
      shared'.guards + thread'.inside + 1 = shared.guards + thread.inside) ∨
    (event = .shut ∧ 0 ≤ shared.gate.counter ∧ shared.gate.counter ≠ Exchange.maxCounter ∧
      shared'.gate.counter = -(shared.gate.counter + 1) ∧
      shared'.guards + thread'.inside = shared.guards + thread.inside) ∨
    (event = .unmatched ∧ ∃ seen, thread.point = .exchanging .exit seen ∧ release? seen = none) ∨
    (event ≠ .admitted ∧ event ≠ .unmatched ∧ event.isShut = false ∧
      shared'.gate.counter = shared.gate.counter ∧
      shared'.guards + thread'.inside = shared.guards + thread.inside) := by
  cases h with
  | exchange hnext hroom =>
    rename_i n exchange next
    cases exchange with
    | enter asker =>
      obtain ⟨hopen, rfl⟩ := admit?_eq_some hnext
      refine .inl ⟨rfl, hopen, beq_eq_false_iff_ne.1 hroom, rfl, ?_⟩
      cases asker <;> simp only [Thread.inside, Exchange.made, Point.inside] <;> omega
    | exit => exact .inr (.inl ⟨rfl, hnext, rfl⟩)
    | close asker =>
      obtain ⟨hopen, rfl⟩ := shut?_eq_some hnext
      exact .inr (.inr (.inl ⟨rfl, hopen, beq_eq_false_iff_ne.1 hroom, rfl, rfl⟩))
  | refuse hnext =>
    rename_i n exchange seen
    cases exchange with
    | exit => exact .inr (.inr (.inr (.inl ⟨rfl, seen, rfl, hnext⟩)))
    | _ => exact .inr (.inr (.inr (.inr ⟨nofun, nofun, rfl, rfl, rfl⟩)))
  | call exchange hentry =>
    refine .inr (.inr (.inr (.inr ⟨nofun, nofun, rfl, rfl, ?_⟩)))
    cases exchange with
    | exit => exact absurd rfl hentry
    | _ => rfl
  | drop hguards =>
    refine .inr (.inr (.inr (.inr ⟨nofun, nofun, rfl, rfl, ?_⟩)))
    simp only [Thread.inside, Point.inside, hguards]
    omega
  | miss =>
    refine .inr (.inr (.inr (.inr ⟨nofun, nofun, rfl, rfl, ?_⟩)))
    simp only [Thread.inside]
    rw [inside_exchanging]
  | overflow hroom =>
    rename_i n exchange seen
    refine .inr (.inr (.inr (.inr ⟨nofun, nofun, rfl, rfl, ?_⟩)))
    cases exchange with
    | exit => cases hroom
    | _ => rfl
  | lend =>
    refine .inr (.inr (.inr (.inr ⟨nofun, nofun, rfl, rfl, ?_⟩)))
    simp only [Thread.inside, Point.inside]
    omega
  | drain =>
    rename_i n asker first _
    refine .inr (.inr (.inr (.inr ⟨nofun, nofun, rfl, rfl, ?_⟩)))
    cases asker <;> rfl
  | leave | lack | turn | wait | take =>
    exact .inr (.inr (.inr (.inr ⟨nofun, nofun, rfl, rfl, rfl⟩)))

/-- A thread that is about to leave has read the counter while it was inside. -/
theorem seen_of_exit {seen : Int} (h : Acts shared thread event shared' thread')
    (hpoint : thread'.point = .exchanging .exit seen) :
    seen = shared.gate.counter ∧ 1 ≤ shared.guards + thread.inside := by
  cases h with
  | exchange =>
    rename_i exchange _ _ _
    cases exchange with
    | enter asker => cases asker <;> cases hpoint
    | _ => cases hpoint
  | refuse =>
    rename_i exchange _ _
    cases exchange <;> cases hpoint
  | call exchange hentry =>
    cases hpoint
    exact absurd rfl hentry
  | miss =>
    cases hpoint
    refine ⟨rfl, ?_⟩
    simp only [Thread.inside, Point.inside]
    omega
  | drain =>
    rename_i asker _ _
    cases asker <;> cases hpoint
  | leave | drop | turn =>
    cases hpoint
    refine ⟨rfl, ?_⟩
    simp only [Thread.inside, Point.inside]
    omega
  | overflow | lend | lack | wait | take => cases hpoint

/-- **What a step does to those who shut the gate**: who shuts it waits until he is told that he was
    the first, and then takes the value at most once. -/
theorem closers (h : Acts shared thread event shared' thread') :
    thread'.point.waits + event.isFirstClose.toNat = thread.point.waits + event.isShut.toNat ∧
      thread'.point.takes + event.handsOver.toNat ≤
        thread.point.takes + event.isFirstClose.toNat := by
  cases h with
  | exchange =>
    rename_i exchange _ _ _
    cases exchange with
    | enter asker => cases asker <;> exact ⟨rfl, Nat.le_refl _⟩
    | _ => exact ⟨rfl, Nat.le_refl _⟩
  | refuse =>
    rename_i exchange _ _
    cases exchange <;> exact ⟨rfl, Nat.le_refl _⟩
  | drain =>
    rename_i asker first _
    cases asker with
    | caller => cases first <;> exact ⟨rfl, Nat.zero_le _⟩
    | guarded => cases first <;> exact ⟨rfl, Nat.le_refl _⟩
  | take =>
    rename_i first
    refine ⟨by cases first <;> rfl, ?_⟩
    cases first with
    | false => exact Nat.le_refl _
    | true =>
      show 0 + shared.value.isSome.toNat ≤ 1
      rw [Nat.zero_add]
      exact Bool.toNat_le _
  | call | leave | drop | miss | overflow | lend | lack | turn | wait => exact ⟨rfl, Nat.le_refl _⟩

/-- A close comes back to nobody before the gate has drained. -/
theorem drained_of_closed {first : Bool} (h : Acts shared thread event shared' thread')
    (hevent : event = .closed first) : shared.gate.counter = closedCounter := by
  cases h with
  | drain hdrained => exact beq_iff_eq.1 hdrained
  | exchange =>
    rename_i exchange _ _ _
    cases exchange <;> cases hevent
  | refuse =>
    rename_i exchange _ _
    cases exchange <;> cases hevent
  | _ => cases hevent

/-- The value goes to one who shut the gate, and it is the one behind the gate. -/
theorem value_of_took {value : α} (h : Acts shared thread event shared' thread')
    (hevent : event = .took (some value)) : shared.value = some value ∧ thread.point.takes = 1 := by
  cases h with
  | take =>
    rename_i first
    cases first with
    | false => cases hevent
    | true => exact ⟨Event.took.inj hevent, rfl⟩
  | exchange =>
    rename_i exchange _ _ _
    cases exchange <;> cases hevent
  | refuse =>
    rename_i exchange _ _
    cases exchange <;> cases hevent
  | _ => cases hevent

/-- The value stays behind the gate until it is handed over. -/
theorem value_eq (h : Acts shared thread event shared' thread') (hkept : event.handsOver = false) :
    shared'.value = shared.value := by
  cases h with
  | take =>
    rename_i first
    cases first with
    | false => rfl
    | true => exact (Option.not_isSome_iff_eq_none.1 (Bool.eq_false_iff.1 hkept)).symm
  | _ => rfl

end Acts

/-! ## 4. What a run does -/

namespace Crowd

variable {ι α : Type} [DecidableEq ι] [Fintype ι]
variable {value : Option α} {trace : List (ι × Event α)} {before after : Crowd ι α}
  {observed : ι × Event α}

/-- What threads add up to when one of them has moved. -/
theorem sum_update (thread : ι → Thread) (weight : Thread → Nat) (name : ι) (moved : Thread) :
    ∑ other, weight (Function.update thread name moved other) + weight (thread name) =
      ∑ other, weight (thread other) + weight moved := by
  have hothers : ∑ other ∈ Finset.univ.erase name,
      weight (Function.update thread name moved other) =
      ∑ other ∈ Finset.univ.erase name, weight (thread other) :=
    Finset.sum_congr rfl fun other hother => by
      rw [Function.update_of_ne (Finset.ne_of_mem_erase hother)]
  rw [← Finset.add_sum_erase _ _ (Finset.mem_univ name), hothers, Function.update_self,
    ← Finset.add_sum_erase _ (fun other => weight (thread other)) (Finset.mem_univ name)]
  omega

omit [DecidableEq ι] in
/-- One thread adds no more than all of them. -/
theorem le_sum (thread : ι → Thread) (weight : Thread → Nat) (name : ι) :
    weight (thread name) ≤ ∑ other, weight (thread other) :=
  Finset.single_le_sum (f := fun other => weight (thread other)) (fun _ _ => Nat.zero_le _)
    (Finset.mem_univ name)

/-- The readers inside when one thread has moved. -/
theorem readers_update (crowd : Crowd ι α) (shared : Shared α) (name : ι) (moved : Thread) :
    (⟨shared, Function.update crowd.thread name moved⟩ : Crowd ι α).readers +
        (crowd.shared.guards + (crowd.thread name).inside) =
      crowd.readers + (shared.guards + moved.inside) := by
  have hsum := sum_update crowd.thread Thread.inside name moved
  simp only [readers]
  omega

omit [DecidableEq ι] [Fintype ι] in
theorem count_cons (p : Event α → Bool) (observed : ι × Event α) (trace : List (ι × Event α)) :
    count p (observed :: trace) = count p trace + (p observed.2).toNat := by
  unfold count
  rw [List.countP_cons]
  cases p observed.2 <;> rfl

/-- **What a step of a crowd does to the counter and to the readers inside.** -/
theorem Step.effect (h : Step before observed after) :
    (observed.2 = .admitted ∧ 0 ≤ before.counter ∧ after.counter = before.counter + 1 ∧
      after.readers = before.readers + 1) ∨
    (observed.2 = .left ∧ release? before.counter = some after.counter ∧
      after.readers + 1 = before.readers) ∨
    (observed.2 = .shut ∧ 0 ≤ before.counter ∧ after.counter = -(before.counter + 1) ∧
      after.readers = before.readers) ∨
    (observed.2 = .unmatched ∧
      ∃ seen, (before.thread observed.1).point = .exchanging .exit seen ∧ release? seen = none) ∨
    (observed.2 ≠ .admitted ∧ observed.2 ≠ .unmatched ∧ observed.2.isShut = false ∧
      after.counter = before.counter ∧ after.readers = before.readers) := by
  obtain ⟨name, hact⟩ := h
  rename_i shared thread event
  have hreaders := readers_update before shared name thread
  rcases hact.effect with ⟨hevent, hopen, -, hcounter, hinside⟩ | ⟨hevent, hcounter, hinside⟩ |
    ⟨hevent, hopen, -, hcounter, hinside⟩ | ⟨hevent, hseen⟩ |
    ⟨hadmitted, hunmatched, hshut, hcounter, hinside⟩
  · exact .inl ⟨hevent, hopen, hcounter, by omega⟩
  · exact .inr (.inl ⟨hevent, hcounter, by omega⟩)
  · exact .inr (.inr (.inl ⟨hevent, hopen, hcounter, by omega⟩))
  · exact .inr (.inr (.inr (.inl ⟨hevent, hseen⟩)))
  · exact .inr (.inr (.inr (.inr ⟨hadmitted, hunmatched, hshut, hcounter, by omega⟩)))

/-- **What a step of a crowd does to those who shut the gate.** -/
theorem Step.closers (h : Step before observed after) :
    ∑ name, (after.thread name).point.waits + observed.2.isFirstClose.toNat =
        ∑ name, (before.thread name).point.waits + observed.2.isShut.toNat ∧
      ∑ name, (after.thread name).point.takes + observed.2.handsOver.toNat ≤
        ∑ name, (before.thread name).point.takes + observed.2.isFirstClose.toNat := by
  obtain ⟨name, hact⟩ := h
  rename_i shared thread event
  obtain ⟨hwaits, htakes⟩ := hact.closers
  have hwaiting := sum_update before.thread (fun thread => thread.point.waits) name thread
  have htaking := sum_update before.thread (fun thread => thread.point.takes) name thread
  dsimp only at hwaiting htaking ⊢
  omega

/-- What the counter says: the readers inside while the gate is open, and the same behind the sign
    once it was shut; and who is about to leave saw somebody inside. -/
structure Counted (trace : List (ι × Event α)) (crowd : Crowd ι α) : Prop where
  opened : count Event.isShut trace = 0 → crowd.counter = crowd.readers
  closing : 0 < count Event.isShut trace → crowd.counter = -(crowd.readers + 1)
  seen : ∀ name seen, (crowd.thread name).point = .exchanging .exit seen → (release? seen).isSome

namespace Counted

omit [DecidableEq ι] in
theorem start : Counted [] (around value : Crowd ι α) where
  opened _ := by
    have hnobody : (around value : Crowd ι α).readers = 0 := by
      show 0 + ∑ _ : ι, 0 = 0
      rw [Finset.sum_const_zero, Nat.add_zero]
    rw [hnobody]
    rfl
  closing h := absurd h (Nat.lt_irrefl 0)
  seen _ _ h := nomatch h

omit [DecidableEq ι] in
/-- A gate whose counter is not negative was not shut. -/
theorem count_isShut (h : Counted trace before) (hopen : 0 ≤ before.counter) :
    count Event.isShut trace = 0 := by
  rcases Nat.eq_zero_or_pos (count Event.isShut trace) with hzero | hpos
  · exact hzero
  · have hclosing := h.closing hpos
    omega

omit [DecidableEq ι] in
/-- With somebody inside, the counter lets somebody out. -/
theorem isSome_release? (h : Counted trace before) (hinside : 1 ≤ before.readers) :
    (release? before.counter).isSome := by
  refine CodeVault.isSome_release? ?_
  rcases Nat.eq_zero_or_pos (count Event.isShut trace) with hzero | hpos
  · have hopened := h.opened hzero
    omega
  · have hclosing := h.closing hpos
    omega

/-- **Nobody leaves who is not inside**, and nobody enters and nobody shuts the gate after it was
    shut. -/
theorem event (h : Counted trace before) (hstep : Step before observed after) :
    observed.2 ≠ .unmatched ∧
      (observed.2 = .admitted ∨ observed.2 = .shut → count Event.isShut trace = 0) := by
  rcases hstep.effect with ⟨hevent, hopen, -⟩ | ⟨hevent, -⟩ | ⟨hevent, hopen, -⟩ |
    ⟨hevent, seen, hpoint, hnone⟩ | ⟨hadmitted, hunmatched, hshut, -⟩
  · exact ⟨by rw [hevent]; nofun, fun _ => h.count_isShut hopen⟩
  · exact ⟨by rw [hevent]; nofun, by rw [hevent]; nofun⟩
  · exact ⟨by rw [hevent]; nofun, fun _ => h.count_isShut hopen⟩
  · have hsome := h.seen _ seen hpoint
    rw [hnone] at hsome
    cases hsome
  · refine ⟨hunmatched, fun hevent => ?_⟩
    rcases hevent with hevent | hevent
    · exact absurd hevent hadmitted
    · rw [hevent] at hshut
      cases hshut

omit [DecidableEq ι] in
/-- A reader who leaves takes one off the readers, on either side of the sign. -/
theorem counter_of_left (h : Counted trace before)
    (hcounter : release? before.counter = some after.counter)
    (hreaders : after.readers + 1 = before.readers) :
    (count Event.isShut trace = 0 → after.counter = after.readers) ∧
      (0 < count Event.isShut trace → after.counter = -(after.readers + 1)) := by
  constructor
  · intro hzero
    have hopened := h.opened hzero
    rcases release?_eq_some hcounter with ⟨-, hnext⟩ | ⟨hnegative, -⟩ <;> omega
  · intro hpos
    have hclosing := h.closing hpos
    rcases release?_eq_some hcounter with ⟨hpositive, -⟩ | ⟨-, hnext⟩ <;> omega

/-- A thread that is about to leave after a step saw somebody inside. -/
theorem seen_step (h : Counted trace before) (hstep : Step before observed after) (other : ι)
    (seen : Int) (hpoint : (after.thread other).point = .exchanging .exit seen) :
    (release? seen).isSome := by
  obtain ⟨name, hact⟩ := hstep
  rename_i shared thread event
  dsimp only at hpoint
  by_cases hother : other = name
  · rw [hother, Function.update_self] at hpoint
    obtain ⟨rfl, hinside⟩ := hact.seen_of_exit hpoint
    refine h.isSome_release? (Nat.le_trans hinside ?_)
    exact Nat.add_le_add_left (le_sum before.thread Thread.inside name) _
  · rw [Function.update_of_ne hother] at hpoint
    exact h.seen other seen hpoint

/-- **Every step keeps what the counter says.** -/
theorem step (h : Counted trace before) (hstep : Step before observed after) :
    Counted (observed :: trace) after := by
  have hmatched := (h.event hstep).1
  suffices hlaw : (count Event.isShut (observed :: trace) = 0 → after.counter = after.readers) ∧
      (0 < count Event.isShut (observed :: trace) → after.counter = -(after.readers + 1)) from
    ⟨hlaw.1, hlaw.2, h.seen_step hstep⟩
  rw [count_cons]
  rcases hstep.effect with ⟨hevent, hopen, hcounter, hreaders⟩ | ⟨hevent, hcounter, hreaders⟩ |
    ⟨hevent, hopen, hcounter, hreaders⟩ | ⟨hevent, -⟩ | ⟨-, -, hshut, hcounter, hreaders⟩
  · have hzero := h.count_isShut hopen
    have hopened := h.opened hzero
    rw [hevent, hzero]
    exact ⟨fun _ => by omega, fun hpos => absurd hpos (Nat.lt_irrefl 0)⟩
  · rw [hevent]
    exact h.counter_of_left hcounter hreaders
  · have hopened := h.opened (h.count_isShut hopen)
    rw [hevent]
    exact ⟨nofun, fun _ => by omega⟩
  · exact absurd hevent hmatched
  · rw [hshut, hcounter, hreaders]
    exact ⟨h.opened, h.closing⟩

end Counted

/-- What became of those who shut the gate: there is one at most, he waits until he is told so, the
    gate is then empty, and the value goes to him alone. -/
structure Closed (value : Option α) (trace : List (ι × Event α)) (crowd : Crowd ι α) : Prop where
  once : count Event.isShut trace ≤ 1
  waits : count Event.isFirstClose trace + ∑ name, (crowd.thread name).point.waits =
    count Event.isShut trace
  takes : count Event.handsOver trace + ∑ name, (crowd.thread name).point.takes ≤
    count Event.isFirstClose trace
  empty : 0 < count Event.isFirstClose trace → crowd.readers = 0
  kept : count Event.handsOver trace = 0 → crowd.shared.value = value

namespace Closed

omit [DecidableEq ι] in
theorem start : Closed value [] (around value : Crowd ι α) where
  once := Nat.zero_le 1
  waits := by
    show 0 + ∑ _ : ι, 0 = 0
    rw [Finset.sum_const_zero, Nat.add_zero]
  takes := by
    show 0 + ∑ _ : ι, 0 ≤ 0
    rw [Finset.sum_const_zero, Nat.add_zero]
  empty h := absurd h (Nat.lt_irrefl 0)
  kept _ := rfl

/-- **A close comes back only from an empty gate.** -/
theorem readers_of_closed {first : Bool} (h : Counted trace before)
    (hstep : Step before observed after) (hevent : observed.2 = .closed first) :
    before.readers = 0 := by
  obtain ⟨name, hact⟩ := hstep
  have hdrained : before.counter = -1 := hact.drained_of_closed hevent
  rcases Nat.eq_zero_or_pos (count Event.isShut trace) with hzero | hpos
  · have hopened := h.opened hzero
    omega
  · have hclosing := h.closing hpos
    omega

/-- An empty gate that was shut stays empty. -/
theorem readers_step (h : Counted trace before) (hshut : 0 < count Event.isShut trace)
    (hreaders : before.readers = 0) (hstep : Step before observed after) : after.readers = 0 := by
  have hclosing := h.closing hshut
  rcases hstep.effect with ⟨-, hopen, -⟩ | ⟨-, -, hleft⟩ | ⟨-, -, -, hsame⟩ | ⟨hevent, -⟩ |
    ⟨-, -, -, -, hsame⟩
  · omega
  · omega
  · omega
  · exact absurd hevent (h.event hstep).1
  · omega

/-- An empty gate was shut when a close came back that had shut it. -/
theorem empty_step (h : Closed value trace before) (hcounted : Counted trace before)
    (hstep : Step before observed after)
    (hclosed : 0 < count Event.isFirstClose (observed :: trace)) :
    after.readers = 0 := by
  have hwaits := h.waits
  have hclosers := hstep.closers.1
  rw [count_cons] at hclosed
  obtain ⟨name, event⟩ := observed
  by_cases hfirst : event = .closed true
  · subst hfirst
    have hshut : 0 < count Event.isShut trace := by
      simp only [Event.isFirstClose, Event.isShut, Bool.toNat_true, Bool.toNat_false] at hclosers
      omega
    exact readers_step hcounted hshut (readers_of_closed hcounted hstep rfl) hstep
  · have hnot : event.isFirstClose = false := by
      cases event with
      | closed first =>
        cases first with
        | false => rfl
        | true => exact absurd rfl hfirst
      | _ => rfl
    rw [hnot, Bool.toNat_false, Nat.add_zero] at hclosed
    exact readers_step hcounted (by omega) (h.empty hclosed) hstep

/-- **Every step keeps what became of those who shut the gate.** -/
theorem step (h : Closed value trace before) (hcounted : Counted trace before)
    (hstep : Step before observed after) : Closed value (observed :: trace) after where
  once := by
    rw [count_cons]
    obtain ⟨name, event⟩ := observed
    cases event with
    | shut =>
      rw [(hcounted.event hstep).2 (.inr rfl)]
      exact Nat.le_refl 1
    | _ => exact h.once
  waits := by
    have hwaits := h.waits
    have hclosers := hstep.closers.1
    rw [count_cons, count_cons]
    omega
  takes := by
    have htakes := h.takes
    have hclosers := hstep.closers.2
    rw [count_cons, count_cons]
    omega
  empty := h.empty_step hcounted hstep
  kept hcount := by
    rw [count_cons] at hcount
    obtain ⟨hbefore, hevent⟩ := Nat.add_eq_zero_iff.1 hcount
    obtain ⟨name, hact⟩ := hstep
    exact (hact.value_eq (Bool.toNat_eq_zero.1 hevent)).trans (h.kept hbefore)

/-- **The value goes to one caller, from an empty gate.** -/
theorem of_took {taken : α} (h : Closed value trace before) (hstep : Step before observed after)
    (hevent : observed.2 = .took (some taken)) : before.readers = 0 ∧ value = some taken := by
  obtain ⟨name, hact⟩ := hstep
  obtain ⟨htaken, htakes⟩ := hact.value_of_took hevent
  have hone := le_sum before.thread (fun thread => thread.point.takes) name
  have hsum := h.takes
  have honce := h.once
  have hwaits := h.waits
  refine ⟨h.empty (by omega), ?_⟩
  rw [← h.kept (by omega), htaken]

end Closed

/-- **What the counter says holds after every run**, and so does what became of those who shut the
    gate. -/
theorem Run.invariant {crowd : Crowd ι α} (h : Run value trace crowd) :
    Counted trace crowd ∧ Closed value trace crowd := by
  induction h with
  | start => exact ⟨Counted.start, Closed.start⟩
  | step _ hstep ih => exact ⟨ih.1.step hstep, ih.2.step ih.1 hstep⟩

/-- **Nobody leaves who is not inside**, in the whole of a run. -/
theorem Run.matched {crowd : Crowd ι α} (h : Run value trace crowd) :
    ∀ observed ∈ trace, observed.2 ≠ .unmatched := by
  induction h with
  | start => exact nofun
  | step hrun hstep ih =>
    intro observed hmem
    rcases List.mem_cons.1 hmem with rfl | hmem
    · exact (hrun.invariant.1.event hstep).1
    · exact ih observed hmem

omit [DecidableEq ι] [Fintype ι] in
theorem count_eq_zero {p : Event α → Bool} (h : count p trace = 0) :
    ∀ earlier ∈ trace, p earlier.2 = false := fun earlier hmem =>
  Bool.eq_false_iff.2 (List.countP_eq_zero.1 h earlier hmem)

/-- **Nobody is let in after the gate was shut**, in the whole of a run. -/
theorem Run.admitted {crowd : Crowd ι α} (h : Run value trace crowd) :
    trace.Pairwise fun later earlier => earlier.2 = .shut → later.2 ≠ .admitted := by
  induction h with
  | start => exact .nil
  | step hrun hstep ih =>
    refine List.pairwise_cons.2 ⟨fun earlier hmem hshut hadmitted => ?_, ih⟩
    have hzero := (hrun.invariant.1.event hstep).2 (.inl hadmitted)
    have hnot := count_eq_zero hzero earlier hmem
    rw [hshut] at hnot
    cases hnot

/-- **A gate is safe in every run of a crowd.** Its counter is the number of readers inside while
    the gate is open, and the same behind the sign once it was shut, so that it never reopens.
    Nobody leaves who is not inside, and nobody is let in after the gate was shut. A close comes
    back only from an empty gate, and one at most says that it was the first. The value goes to one
    closer at most, and then nobody is inside. -/
theorem run_safe {crowd : Crowd ι α} (h : Run value trace crowd) :
    (count Event.isShut trace = 0 → crowd.counter = crowd.readers) ∧
    (0 < count Event.isShut trace → crowd.counter = -(crowd.readers + 1)) ∧
    (∀ observed ∈ trace, observed.2 ≠ .unmatched) ∧
    (trace.Pairwise fun later earlier => earlier.2 = .shut → later.2 ≠ .admitted) ∧
    (∀ name first next, Step crowd (name, .closed first) next → crowd.readers = 0) ∧
    count Event.isFirstClose trace ≤ 1 ∧
    count Event.handsOver trace ≤ 1 ∧
    (∀ name taken next, Step crowd (name, .took (some taken)) next →
      crowd.readers = 0 ∧ value = some taken) ∧
    (0 < crowd.shared.guards → crowd.shared.value = value) := by
  obtain ⟨hcounted, hclosed⟩ := h.invariant
  have honce := hclosed.once
  have hwaits := hclosed.waits
  have htakes := hclosed.takes
  refine ⟨hcounted.opened, hcounted.closing, h.matched, h.admitted,
    fun _ _ _ hstep => Closed.readers_of_closed hcounted hstep rfl, by omega, by omega,
    fun _ _ _ hstep => hclosed.of_took hstep rfl, fun hguards => hclosed.kept ?_⟩
  have hempty := hclosed.empty
  have hreaders : crowd.shared.guards ≤ crowd.readers := Nat.le_add_right _ _
  omega

/-- What is observed when a reader holds the value while a closer comes, who has to wait for him. -/
def handOver : List (Fin 2 × Event Nat) :=
  [(1, .took (some 7)), (1, .closed true), (0, .left), (0, .silent), (1, .silent), (1, .shut),
    (0, .lent 7), (1, .silent), (0, .admitted), (0, .silent)]

/-- **The value is handed over** to a closer who waited for its reader. -/
theorem handOver_run : ∃ crowd, Run (some 7) handOver crowd := by
  have hstart : Run (some 7) [] (around (some 7) : Crowd (Fin 2) Nat) := .start
  have hreads := hstart.step (.act 0 (.call (.enter .guarded) nofun))
  have hadmitted := hreads.step (.act 0 (.exchange rfl rfl))
  have hcloser := hadmitted.step (.act 1 (.call (.close .guarded) nofun))
  have hlent := hcloser.step (.act 0 (.lend rfl))
  have hshut := hlent.step (.act 1 (.exchange rfl rfl))
  have hwaits := hshut.step (.act 1 (.wait rfl))
  have hdropped := hwaits.step (.act 0 (.drop rfl))
  have hleft := hdropped.step (.act 0 (.exchange rfl rfl))
  have hclosed := hleft.step (.act 1 (.drain rfl))
  exact ⟨_, hclosed.step (.act 1 .take)⟩

/-- After the hand-over the gate is closed and empty, and the value is nobody else's. -/
theorem run_safe_handOver : ∃ crowd : Crowd (Fin 2) Nat,
    Run (some 7) handOver crowd ∧ crowd.counter = -(crowd.readers + 1) ∧
      count Event.isFirstClose handOver = 1 ∧ count Event.handsOver handOver = 1 ∧
      ∀ name taken next, Step crowd (name, .took (some taken)) next → crowd.readers = 0 := by
  obtain ⟨crowd, hrun⟩ := handOver_run
  obtain ⟨-, hclosing, -, -, -, -, -, htook, -⟩ := run_safe hrun
  exact ⟨crowd, hrun, hclosing (by decide), by decide, by decide,
    fun name taken next hstep => (htook name taken next hstep).1⟩

end Crowd

end CodeVault
