/-!
# Words

Counters, terms and bit patterns live in words of a fixed number of bits.
-/
namespace FleetCoordination.Word

/-- Number of values of a word. -/
def count (bits : Nat) : Nat := Nat.pow 2 bits

/-- The largest value of a word. -/
def last (bits : Nat) : Nat := count bits - 1

theorem count_pos (bits : Nat) : 0 < count bits := Nat.pow_pos (by decide)

theorem last_lt (bits : Nat) : last bits < count bits := Nat.sub_lt (count_pos bits) (by decide)

/-- The sum as a word holds it. -/
def add (bits a b : Nat) : Nat := (a + b) % count bits

end FleetCoordination.Word
