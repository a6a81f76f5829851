/-!
# Durations

Spans of time, counted in nanoseconds. Coarser units are rounded down.
-/

namespace SealedChat

structure Duration where
  nanoseconds : Nat
deriving DecidableEq, Repr

namespace Duration

def ofMillis (n : Nat) : Duration := ⟨n * 1000000⟩
def ofSeconds (n : Nat) : Duration := ⟨n * 1000000000⟩

def millis (d : Duration) : Nat := d.nanoseconds / 1000000
def seconds (d : Duration) : Nat := d.nanoseconds / 1000000000

@[simp] theorem millis_ofMillis (n : Nat) : (ofMillis n).millis = n := by simp [ofMillis, millis]

end Duration

end SealedChat
