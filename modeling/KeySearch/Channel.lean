/-!
# Channels

A channel carries items from any number of senders to one receiver. Items come out in the order in
which they went in, each of them once.
-/

set_option autoImplicit false

namespace KeySearch

/-- The items that are waiting, the oldest one first. -/
structure Channel (α : Type) where
  items : List α
  deriving Repr, DecidableEq

namespace Channel

variable {α : Type}

/-- A channel with nothing in it. -/
def empty : Channel α := ⟨[]⟩

/-- Adds an item behind all others. -/
def push (c : Channel α) (item : α) : Channel α := ⟨c.items ++ [item]⟩

/-- Takes the oldest item, if there is one. -/
def pop? (c : Channel α) : Option (α × Channel α) :=
  match c.items with
  | [] => none
  | item :: rest => some (item, ⟨rest⟩)

/-- Takes the oldest item without waiting, if there is one. A blank item looks like none. -/
def tryPop (c : Channel (Option α)) : Option α × Channel (Option α) :=
  match c.pop? with
  | none => (none, c)
  | some (item, rest) => (item, rest)

/-- A look of a receiver that waits for an item. It takes the oldest one, or there is none: then it
gets no answer and waits on, or a blank answer when its time is over. -/
def look (c : Channel (Option α)) (expired : Bool) : Option (Option α) × Channel (Option α) :=
  match c.pop? with
  | none => (if expired then some none else none, c)
  | some (item, rest) => (some item, rest)

/-- The number of items that are waiting. -/
def size (c : Channel α) : Nat := c.items.length

/-- Whether nothing is waiting. -/
def isEmpty (c : Channel α) : Bool := c.items.isEmpty

end Channel

end KeySearch
