import KeySearch.Proofs.Schedule
import Mathlib.Data.List.ReduceOption

/-!
# Items come out of a channel as they went in

Senders and receivers use a channel one at a time, in any order. `Channel.Use` is one such use:
something is sent, or a receiver tries for an item, or a receiver that waits for one looks again. Each
item that was sent is taken once or still waits, and the items are taken in the order in which they
were sent, whoever sent or took them. What the receivers are told are the items that were taken, and
nothing else but blanks. A receiver that tries until it gets a blank has all that waited, which is how
a search empties its channel when it shuts down.
-/

set_option autoImplicit false

namespace KeySearch

namespace Channel

variable {α : Type}

/-! ## Uses of a channel -/

/-- What somebody does with a channel while nobody else can. -/
inductive Use (α : Type)
  /-- A sender adds an item, which may be blank. -/
  | push (sender : Nat) (item : Option α)
  /-- A receiver takes an item without waiting. -/
  | tryPop
  /-- A receiver that waits looks for an item, perhaps for the last time. -/
  | look (expired : Bool)

/-- Whether a receiver goes on waiting if it finds nothing. -/
def Use.waits : Use α → Bool
  | .look false => true
  | _ => false

/-- The channel after a use. -/
def after (c : Channel (Option α)) : Use α → Channel (Option α)
  | .push _ item => c.push item
  | .tryPop => c.tryPop.2
  | .look expired => (c.look expired).2

/-- The channel after several uses. -/
def afterAll (c : Channel (Option α)) (uses : List (Use α)) : Channel (Option α) :=
  uses.foldl after c

/-- What a use sends, with the number of the sender. -/
def Use.sent : Use α → List (Nat × Option α)
  | .push sender item => [(sender, item)]
  | _ => []

/-- What several uses send, in their order. -/
def sent (uses : List (Use α)) : List (Nat × Option α) := uses.flatMap Use.sent

/-- The items of one sender. -/
def itemsOf (sender : Nat) (entries : List (Nat × Option α)) : List (Option α) :=
  entries.filterMap fun entry => if entry.1 = sender then some entry.2 else none

/-- The item that a use takes off the channel, if it takes one. -/
def takenBy (c : Channel (Option α)) : Use α → List (Option α)
  | .push _ _ => []
  | .tryPop | .look _ => (c.pop?.map Prod.fst).toList

/-- The answer that a use gives to a receiver, if it gives one. -/
def answerTo (c : Channel (Option α)) : Use α → List (Option α)
  | .push _ _ => []
  | .tryPop => [c.tryPop.1]
  | .look expired => (c.look expired).1.toList

/-- What uses come to, one after another. -/
def gather (part : Channel (Option α) → Use α → List (Option α)) :
    Channel (Option α) → List (Use α) → List (Option α)
  | _, [] => []
  | c, use :: rest => part c use ++ gather part (c.after use) rest

/-- The items that are taken off the channel. -/
def taken (c : Channel (Option α)) (uses : List (Use α)) : List (Option α) := gather takenBy c uses

/-- The answers that the receivers get. -/
def answers (c : Channel (Option α)) (uses : List (Use α)) : List (Option α) :=
  gather answerTo c uses

/-! ## One use -/

/-- Whoever looks at an empty channel takes nothing and gets no item. -/
theorem receive_of_empty {c : Channel (Option α)} (h : c.items = []) :
    c.tryPop = (none, c) ∧ ∀ expired, c.look expired = (if expired then some none else none, c) := by
  simp [tryPop, look, pop?, h]

/-- A receiver of a channel that is not empty gets the oldest item. -/
theorem receive_of_cons {c : Channel (Option α)} {item : Option α} {rest : List (Option α)}
    (h : c.items = item :: rest) :
    c.tryPop = (item, ⟨rest⟩) ∧ ∀ expired, c.look expired = (some item, ⟨rest⟩) := by
  simp [tryPop, look, pop?, h]

/-- An item is taken in front or added behind, and all others stay in their order. -/
theorem takenBy_append_items (c : Channel (Option α)) (use : Use α) :
    c.takenBy use ++ (c.after use).items = c.items ++ use.sent.map Prod.snd := by
  cases use with
  | push sender item => rfl
  | tryPop =>
      cases hitems : c.items with
      | nil => simp [takenBy, after, Use.sent, pop?, (receive_of_empty hitems).1, hitems]
      | cons item rest => simp [takenBy, after, Use.sent, pop?, (receive_of_cons hitems).1, hitems]
  | look expired =>
      cases hitems : c.items with
      | nil => simp [takenBy, after, Use.sent, pop?, (receive_of_empty hitems).2, hitems]
      | cons item rest => simp [takenBy, after, Use.sent, pop?, (receive_of_cons hitems).2, hitems]

/-- An answer is the item that was taken, or it is blank. -/
theorem reduceOption_answerTo (c : Channel (Option α)) (use : Use α) :
    (c.answerTo use).reduceOption = (c.takenBy use).reduceOption := by
  cases use with
  | push sender item => rfl
  | tryPop =>
      cases hitems : c.items with
      | nil => simp [answerTo, takenBy, pop?, (receive_of_empty hitems).1, hitems]
      | cons item rest => simp [answerTo, takenBy, pop?, (receive_of_cons hitems).1, hitems]
  | look expired =>
      cases hitems : c.items with
      | nil => cases expired <;> simp [answerTo, takenBy, pop?, (receive_of_empty hitems).2, hitems]
      | cons item rest => simp [answerTo, takenBy, pop?, (receive_of_cons hitems).2, hitems]

/-! ## Uses in any order -/

/-- What was taken and what still waits is what was there and what was sent, in this order. -/
theorem taken_append_items (c : Channel (Option α)) (uses : List (Use α)) :
    c.taken uses ++ (c.afterAll uses).items = c.items ++ (sent uses).map Prod.snd := by
  induction uses generalizing c with
  | nil => simp [taken, gather, afterAll, sent]
  | cons use rest ih =>
      calc c.taken (use :: rest) ++ (c.afterAll (use :: rest)).items
          = c.takenBy use ++ ((c.after use).taken rest ++ ((c.after use).afterAll rest).items) := by
            rw [← List.append_assoc]
            rfl
        _ = c.items ++ use.sent.map Prod.snd ++ (sent rest).map Prod.snd := by
            rw [ih, ← List.append_assoc, takenBy_append_items]
        _ = c.items ++ (sent (use :: rest)).map Prod.snd := by
            rw [List.append_assoc, ← List.map_append]
            rfl

/-- The receivers are told what was taken, and nothing else but blanks. -/
theorem reduceOption_answers (c : Channel (Option α)) (uses : List (Use α)) :
    (c.answers uses).reduceOption = (c.taken uses).reduceOption := by
  induction uses generalizing c with
  | nil => rfl
  | cons use rest ih =>
      show (c.answerTo use ++ (c.after use).answers rest).reduceOption
        = (c.takenBy use ++ (c.after use).taken rest).reduceOption
      rw [List.reduceOption_append, List.reduceOption_append, reduceOption_answerTo, ih]

theorem itemsOf_append (sender : Nat) (front back : List (Nat × Option α)) :
    itemsOf sender (front ++ back) = itemsOf sender front ++ itemsOf sender back :=
  List.filterMap_append

/-! ## Emptying a channel -/

theorem size_lt_of_tryPop {c rest : Channel (Option α)} {item : α}
    (h : c.tryPop = (some item, rest)) : rest.size < c.size := by
  cases hitems : c.items with
  | nil =>
      rw [(receive_of_empty hitems).1] at h
      cases h
  | cons oldest behind =>
      rw [(receive_of_cons hitems).1] at h
      cases h
      simp [size, hitems]

/-- A receiver takes items without waiting until the answer is blank. -/
def takeAll (c : Channel (Option α)) : List α × Channel (Option α) :=
  match _h : c.tryPop with
  | (none, rest) => ([], rest)
  | (some item, rest) => (item :: rest.takeAll.1, rest.takeAll.2)
termination_by c.size
decreasing_by all_goals exact size_lt_of_tryPop _h

theorem takeAll_of_none {c rest : Channel (Option α)} (h : c.tryPop = (none, rest)) :
    c.takeAll = ([], rest) := by
  rw [takeAll]
  split <;> simp_all

theorem takeAll_of_some {c rest : Channel (Option α)} {item : α}
    (h : c.tryPop = (some item, rest)) :
    c.takeAll = (item :: rest.takeAll.1, rest.takeAll.2) := by
  rw [takeAll]
  split <;> simp_all

/-- Taking until the answer is blank empties a channel that has no blank item. -/
theorem takeAll_map_some (finds : List α) :
    takeAll (⟨finds.map some⟩ : Channel (Option α)) = (finds, empty) := by
  induction finds with
  | nil => exact takeAll_of_none rfl
  | cons find finds ih =>
      have hfirst : tryPop (⟨some find :: finds.map some⟩ : Channel (Option α))
          = (some find, ⟨finds.map some⟩) := rfl
      rw [List.map_cons, takeAll_of_some hfirst, ih]

end Channel

/-- A search that shuts down takes items off its channel until it gets a blank, and keeps the best of
them. -/
theorem Search.drain_eq_takeAll {α : Type} [Scored α] (s : Search α) :
    s.drain.2.channel = s.channel.takeAll.2
      ∧ s.drain.2.best = s.channel.takeAll.1.foldl (keepBetter s.settings.byBlocks) s.best := by
  have htaken : ∀ (items : List (Option α)) (s : Search α),
      (drainItems items s).2.channel = (Channel.takeAll ⟨items⟩).2
        ∧ leftOver items = (Channel.takeAll ⟨items⟩).1 := by
    intro items
    induction items with
    | nil =>
        intro s
        rw [Channel.takeAll_of_none rfl]
        exact ⟨rfl, rfl⟩
    | cons item rest ih =>
        intro s
        cases item with
        | none =>
            rw [Channel.takeAll_of_none rfl]
            exact ⟨rfl, rfl⟩
        | some find =>
            obtain ⟨hchannel, hfinds⟩ := ih (s.offer find).2
            rw [Channel.takeAll_of_some rfl, drainItems_cons, leftOver, hfinds]
            exact ⟨hchannel, rfl⟩
  obtain ⟨hchannel, hfinds⟩ := htaken s.channel.items s
  refine ⟨hchannel, ?_⟩
  rw [← hfinds]
  exact best_drainItems s.channel.items s

namespace Channel

variable {α : Type}

/-! ## All uses together -/

/-- A receiver takes the oldest item and is told so. It takes nothing off an empty channel, and then
its answer is blank unless it goes on waiting. -/
theorem receive_cases (c : Channel (Option α)) {use : Use α} (h : use.sent = []) :
    (c.items = [] → c.after use = c ∧ c.takenBy use = []
        ∧ c.answerTo use = if use.waits then [] else [none])
      ∧ ∀ item rest, c.items = item :: rest → c.after use = ⟨rest⟩ ∧ c.takenBy use = [item]
        ∧ c.answerTo use = [item] := by
  constructor
  · intro hempty
    obtain ⟨htry, hlook⟩ := receive_of_empty hempty
    cases use with
    | push sender item => cases h
    | tryPop => simp [after, takenBy, answerTo, Use.waits, htry, pop?, hempty]
    | look expired =>
        cases expired <;> simp [after, takenBy, answerTo, Use.waits, hlook, pop?, hempty]
  · intro item rest hitems
    obtain ⟨htry, hlook⟩ := receive_of_cons hitems
    cases use with
    | push sender item => cases h
    | tryPop => simp [after, takenBy, answerTo, htry, pop?, hitems]
    | look expired => simp [after, takenBy, answerTo, hlook, pop?, hitems]

/-- **A channel hands on each item once, in the order in which it was sent.** Whoever sends and
receives, and in whatever order: the items that were taken, followed by those that wait, are the items
that were sent. Each sender's items come out in the order in which it sent them, and the size is the
number of items sent less the number taken. At an empty channel nothing is taken and no item is given,
at any other the oldest one is; so the receivers are told what was taken, and nothing else but blanks.
If no blank item waits, taking until the answer is blank gives all that waits and leaves nothing. -/
theorem uses_in_order (uses : List (Use α)) :
    let final := (empty : Channel (Option α)).afterAll uses
    let gone := (empty : Channel (Option α)).taken uses
    gone ++ final.items = (sent uses).map Prod.snd
      ∧ (∃ received waiting, sent uses = received ++ waiting
        ∧ received.map Prod.snd = gone ∧ waiting.map Prod.snd = final.items
        ∧ ∀ sender, itemsOf sender received <+: itemsOf sender (sent uses))
      ∧ final.size + gone.length = (sent uses).length
      ∧ (∀ use : Use α, use.sent = [] →
        (final.items = [] → final.after use = final ∧ final.takenBy use = []
            ∧ final.answerTo use = if use.waits then [] else [none])
          ∧ ∀ item rest, final.items = item :: rest → final.after use = ⟨rest⟩
            ∧ final.takenBy use = [item] ∧ final.answerTo use = [item])
      ∧ ((empty : Channel (Option α)).answers uses).reduceOption = gone.reduceOption
      ∧ ∀ finds, final.items = finds.map some → final.takeAll = (finds, empty) := by
  intro final gone
  have hall : gone ++ final.items = (sent uses).map Prod.snd := taken_append_items empty uses
  refine ⟨hall, ?_, ?_, fun use => receive_cases final, reduceOption_answers empty uses, ?_⟩
  · obtain ⟨received, waiting, hsent, hgone, hwaiting⟩ := List.map_eq_append_iff.mp hall.symm
    refine ⟨received, waiting, hsent, hgone, hwaiting, fun sender => ?_⟩
    rw [hsent, itemsOf_append]
    exact List.prefix_append _ _
  · have hlength := congrArg List.length hall
    rw [List.length_append, List.length_map, Nat.add_comm] at hlength
    exact hlength
  · intro finds hfinds
    have hfinal : final = ⟨finds.map some⟩ := congrArg Channel.mk hfinds
    rw [hfinal, takeAll_map_some]

/-- Two senders take turns, one of them with a blank item. A receiver waits in vain, then another one
takes three items off the channel. -/
def twoSenders : List (Use String) :=
  [.look false, .push 0 (some "a"), .push 1 none, .push 0 (some "b"), .tryPop, .look true,
    .push 1 (some "c"), .tryPop]

/-- The last item waits, and is all that is left. -/
theorem uses_in_order_twoSenders :
    (empty : Channel (Option String)).taken twoSenders = [some "a", none, some "b"]
      ∧ (empty.afterAll twoSenders).size = 1
      ∧ (empty.afterAll twoSenders).takeAll = (["c"], empty) := by
  obtain ⟨hall, -, hsize, -, -, hrest⟩ := uses_in_order twoSenders
  have htaken : (empty : Channel (Option String)).taken twoSenders = [some "a", none, some "b"] := by
    decide
  have hsent : (sent twoSenders).map Prod.snd = [some "a", none, some "b", some "c"] := by decide
  rw [htaken] at hall hsize
  rw [hsent] at hall
  have hlength := congrArg List.length hsent
  rw [List.length_map] at hlength
  have hleft : (empty.afterAll twoSenders).items = ["c"].map some := List.append_cancel_left hall
  refine ⟨htaken, ?_, hrest ["c"] hleft⟩
  rw [hlength] at hsize
  exact Nat.add_right_cancel hsize

end Channel

end KeySearch
