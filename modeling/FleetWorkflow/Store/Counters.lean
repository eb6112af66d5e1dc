import Mathlib.Algebra.Order.Ring.Rat
import Mathlib.Logic.Function.Basic
import Mathlib.Tactic.Linarith

/-!
# Counters that expire

The counters of Redis under their keys. A counter that is past its deadline is not found any more, and the next
increment starts another one. Where each counter is given a deadline with its first increment, and is used only until
a moment before that deadline, it counts the increments under its key.
-/

namespace FleetWorkflow.Store

/-- A counter, with a deadline once it has one. -/
structure Counter where
  count : ℤ
  deadline : Option ℚ
deriving DecidableEq

/-- A counter is found until its deadline. -/
def Counter.isLive (now : ℚ) (counter : Counter) : Bool := counter.deadline.all fun deadline => now < deadline

/-- The counters of a database. -/
abbrev Counters (κ : Type) := κ → Option Counter

namespace Counters

variable {κ : Type}

/-- The counter that is found under a key. -/
def find? (counters : Counters κ) (now : ℚ) (key : κ) : Option Counter := (counters key).filter (Counter.isLive now)

/-- A counter has counted some increments, and it is found up to a moment. -/
def Counted (counters : Counters κ) (key : κ) (moment : ℚ) (n : ℕ) : Prop :=
  (n = 0 ∧ counters key = none) ∨ 0 < n ∧ ∃ deadline, moment ≤ deadline ∧ counters key = some ⟨n, some deadline⟩

variable {counters : Counters κ} {key : κ} {moment now : ℚ} {n seconds : ℕ}

/-- A counter that has counted stays found before the moment. -/
theorem Counted.isLive (h : counters.Counted key moment n) (hnow : now < moment) {counter : Counter}
    (hcounter : counters key = some counter) : counter.isLive now = true := by
  rcases h with ⟨-, hnone⟩ | ⟨-, deadline, hdeadline, hsome⟩
  · rw [hnone] at hcounter
    cases hcounter
  · rw [hsome] at hcounter
    cases hcounter
    simp [Counter.isLive, lt_of_lt_of_le hnow hdeadline]

/-- A counter that has counted is found before the moment. -/
theorem Counted.find? (h : counters.Counted key moment n) (hnow : now < moment) :
    counters.find? now key = counters key := by
  rw [Counters.find?]
  cases hcounter : counters key with
  | none => rfl
  | some counter => rw [Option.filter_some, if_pos (h.isLive hnow hcounter)]

variable [DecidableEq κ]

/-- `INCR`: a counter that is not found starts from zero, without a deadline. -/
def incr (counters : Counters κ) (now : ℚ) (key : κ) : Counters κ × ℤ :=
  let counter := (counters.find? now key).getD ⟨0, none⟩
  (Function.update counters key (some ⟨counter.count + 1, counter.deadline⟩), counter.count + 1)

/-- `EXPIRE`: a counter that is found gets another deadline. -/
def expire (counters : Counters κ) (now : ℚ) (key : κ) (seconds : ℕ) : Counters κ :=
  match counters.find? now key with
  | some counter => Function.update counters key (some ⟨counter.count, some (now + seconds)⟩)
  | none => counters

/-- An increment, which gives a deadline to the counter that it starts. -/
def hit (counters : Counters κ) (now : ℚ) (key : κ) (seconds : ℕ) : Counters κ × ℤ :=
  if (counters.incr now key).2 = 1 then ((counters.incr now key).1.expire now key seconds, (counters.incr now key).2)
  else counters.incr now key

/-- Increments of another key leave a counter as it is. -/
theorem hit_of_ne {key' : κ} (h : key ≠ key') : (counters.hit now key' seconds).1 key = counters key := by
  have hincr : (counters.incr now key').1 key = counters key := Function.update_of_ne h ..
  rw [hit]
  split
  · rw [expire]
    cases (counters.incr now key').1.find? now key' with
    | none => exact hincr
    | some counter => exact (Function.update_of_ne h ..).trans hincr
  · exact hincr

/-- Before the moment an increment returns how many there were with it, and its counter has counted it. -/
theorem Counted.hit (h : counters.Counted key moment n) (hnow : now < moment) (hseconds : moment ≤ now + seconds) :
    (counters.hit now key seconds).2 = n + 1 ∧ (counters.hit now key seconds).1.Counted key moment (n + 1) := by
  have hfind := h.find? hnow
  rcases h with ⟨rfl, hnone⟩ | ⟨hpos, deadline, hdeadline, hsome⟩
  · have hincr : counters.incr now key = (Function.update counters key (some ⟨1, none⟩), 1) := by
      rw [incr, hfind, hnone]
      rfl
    have hstarted : Counters.find? (Function.update counters key (some ⟨1, none⟩)) now key = some ⟨1, none⟩ := by
      rw [Counters.find?, Function.update_self]
      rfl
    rw [Counters.hit, hincr, if_pos rfl, expire, hstarted]
    refine ⟨rfl, .inr ⟨Nat.one_pos, now + seconds, hseconds, ?_⟩⟩
    exact Function.update_self ..
  · have hincr : counters.incr now key =
        (Function.update counters key (some ⟨n + 1, some deadline⟩), (n : ℤ) + 1) := by
      rw [incr, hfind, hsome]
      rfl
    rw [Counters.hit, hincr, if_neg (by dsimp only; omega)]
    refine ⟨rfl, .inr ⟨Nat.succ_pos n, deadline, hdeadline, ?_⟩⟩
    rw [Nat.cast_succ]
    exact Function.update_self ..

end Counters

end FleetWorkflow.Store
