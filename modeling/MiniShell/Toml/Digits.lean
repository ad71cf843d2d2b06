/-!
# Digits
-/

namespace MiniShell.Toml

/-- The value of a digit below the base. Letters of either case go on after nine. -/
def digit? (base : Nat) (c : Char) : Option Nat :=
  let value :=
    if '0' ≤ c ∧ c ≤ '9' then c.toNat - '0'.toNat
    else if 'a' ≤ c ∧ c ≤ 'f' then c.toNat - 'a'.toNat + 10
    else if 'A' ≤ c ∧ c ≤ 'F' then c.toNat - 'A'.toNat + 10
    else base
  if value < base then some value else none

/-- The number with the given digits, the first one the most significant. -/
def ofDigits? (base : Nat) (digits : List Char) : Option Nat :=
  (digits.mapM (digit? base)).map fun values => values.foldl (fun n d => base * n + d) 0

def ofDecimal (digits : List Char) : Nat :=
  (ofDigits? 10 digits).getD 0

end MiniShell.Toml
