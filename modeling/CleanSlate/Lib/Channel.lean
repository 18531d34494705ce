import Mathlib.Data.List.Infix
import Mathlib.Data.Multiset.AddSub
import Mathlib.Logic.Relation

/-!
# Channels

A channel remembers everything that was ever put into it and taken out of it, with the queue in
between. While it is open it accepts; while it drains it only hands out what is queued; once it is
shut it has nothing left. Whatever its history, nothing is taken that was not put, and nothing is
lost before it is shut. Where every element is taken from the front (`fifo`), they are also taken in
the order in which they were put.
-/

namespace CleanSlate.Lib

inductive Channel.Phase where
  | «open»
  | draining
  | shut
  deriving DecidableEq

structure Channel (α : Type) where
  puts : List α
  takes : List α
  queue : List α
  phase : Channel.Phase

namespace Channel

variable {α : Type} {fifo : Prop}

def new : Channel α := ⟨[], [], [], .open⟩

inductive Step (fifo : Prop) (ch : Channel α) : Channel α → Prop
  | put (a : α) (accepts : ch.phase = .open) : Step fifo ch { ch with
      puts := ch.puts ++ [a]
      queue := ch.queue ++ [a] }
  | take {front back : List α} {a : α} (split : ch.queue = front ++ a :: back)
      (first : fifo → front = []) : Step fifo ch { ch with
      takes := ch.takes ++ [a]
      queue := front ++ back }
  | drain (accepts : ch.phase = .open) : Step fifo ch { ch with
      phase := .draining }
  | shut : Step fifo ch { ch with
      queue := []
      phase := .shut }

/-- A channel some history leads to. -/
def Reachable (fifo : Prop) (ch : Channel α) : Prop := Relation.ReflTransGen (Step fifo) new ch

theorem Reachable.new : Reachable fifo (Channel.new : Channel α) := .refl

theorem Reachable.step {ch ch' : Channel α} (h : Reachable fifo ch) (step : Step fifo ch ch') :
    Reachable fifo ch' :=
  Relation.ReflTransGen.tail h step

theorem Reachable.imp {fifo' : Prop} (himp : fifo' → fifo) {ch : Channel α}
    (h : Reachable fifo ch) : Reachable fifo' ch := by
  refine Relation.ReflTransGen.mono (fun ch ch' step => ?_) _ _ h
  cases step with
  | put a accepts => exact .put a accepts
  | take split first => exact .take split fun hf => first (himp hf)
  | drain accepts => exact .drain accepts
  | shut => exact .shut

/-- What a channel's history keeps. -/
structure Conserved (fifo : Prop) (ch : Channel α) : Prop where
  taken : (ch.takes : Multiset α) ≤ ch.puts
  kept : ch.phase ≠ .shut → (ch.puts : Multiset α) = ch.takes + ch.queue
  emptied : ch.phase = .shut → ch.queue = []
  inOrder : fifo → ch.takes <+: ch.puts
  keptInOrder : fifo → ch.phase ≠ .shut → ch.puts = ch.takes ++ ch.queue

theorem Step.conserved {ch ch' : Channel α} (step : Step fifo ch ch') (h : Conserved fifo ch) :
    Conserved fifo ch' := by
  cases step with
  | put a accepts =>
    have hop : ch.phase ≠ .shut := by
      rw [accepts]
      simp
    refine ⟨?_, fun _ => ?_, fun hsh => absurd hsh hop, fun hf => ?_, fun hf _ => ?_⟩
    · exact le_trans h.taken (Multiset.coe_le.2 (List.sublist_append_left ..).subperm)
    · simp only [← Multiset.coe_add, h.kept hop, Multiset.add_assoc]
    · exact (h.inOrder hf).trans (List.prefix_append ..)
    · rw [h.keptInOrder hf hop, List.append_assoc]
  | @take front back a split first =>
    have hop : ch.phase ≠ .shut := by
      intro hsh
      rw [h.emptied hsh] at split
      simp at split
    have hkp : (ch.puts : Multiset α) = (ch.takes ++ [a] : List α) + (front ++ back : List α) := by
      rw [h.kept hop, split]
      simp only [Multiset.coe_add, Multiset.coe_eq_coe, List.append_assoc]
      exact List.Perm.append_left _ List.perm_middle
    have hor : fifo → ch.puts = ch.takes ++ [a] ++ (front ++ back) := by
      intro hf
      rw [h.keptInOrder hf hop, split, first hf, List.append_assoc]
      rfl
    refine ⟨?_, fun _ => hkp, fun hsh => absurd hsh hop, fun hf => ?_, fun hf _ => hor hf⟩
    · rw [hkp]
      exact Multiset.le_add_right ..
    · exact ⟨_, (hor hf).symm⟩
  | drain accepts =>
    have hop : ch.phase ≠ .shut := by
      rw [accepts]
      simp
    exact ⟨h.taken, fun _ => h.kept hop, fun hsh => (by cases hsh), h.inOrder,
      fun hf _ => h.keptInOrder hf hop⟩
  | shut =>
    exact ⟨h.taken, fun hop => absurd rfl hop, fun _ => rfl, h.inOrder, fun _ hop => absurd rfl hop⟩

theorem Reachable.conserved {ch : Channel α} (h : Reachable fifo ch) : Conserved fifo ch := by
  induction h with
  | refl =>
    exact ⟨le_refl _, fun _ => rfl, fun _ => rfl, fun _ => List.prefix_refl _, fun _ _ => rfl⟩
  | tail _ step ih => exact step.conserved ih

end Channel

end CleanSlate.Lib
