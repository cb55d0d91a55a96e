/-! # Values with the events on the way to them

A computation that asks questions of the world is a value together with the list of what it asked,
in order.
-/

namespace TouchedLines

structure Traced (ε α : Type) where
  events : List ε
  value : α

namespace Traced

def pure {ε α : Type} (a : α) : Traced ε α := ⟨[], a⟩

/-- The events of the first computation come before those of the second. -/
def bind {ε α β : Type} (x : Traced ε α) (f : α → Traced ε β) : Traced ε β :=
  ⟨x.events ++ (f x.value).events, (f x.value).value⟩

/-- The value after the one event. -/
def one {ε α : Type} (event : ε) (a : α) : Traced ε α := ⟨[event], a⟩

instance {ε : Type} : Monad (Traced ε) where
  pure := pure
  bind := bind

theorem events_pure {ε α : Type} (a : α) : (Pure.pure a : Traced ε α).events = [] := rfl

theorem value_pure {ε α : Type} (a : α) : (Pure.pure a : Traced ε α).value = a := rfl

theorem events_bind {ε α β : Type} (x : Traced ε α) (f : α → Traced ε β) :
    (x >>= f).events = x.events ++ (f x.value).events := rfl

theorem value_bind {ε α β : Type} (x : Traced ε α) (f : α → Traced ε β) :
    (x >>= f).value = (f x.value).value := rfl

end Traced

end TouchedLines
