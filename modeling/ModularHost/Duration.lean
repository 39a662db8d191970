/-!
# Durations

Spans of time to the nanosecond. One is written in the greatest unit that it reaches, with as many
decimals as it needs.
-/

namespace ModularHost

structure Duration where
  nanoseconds : Nat
deriving DecidableEq, Repr

namespace Duration

def ofMicroseconds (n : Nat) : Duration := ⟨n * 1000⟩

def ofSeconds (n : Nat) : Duration := ⟨n * 1000000000⟩

/-- A count of `10 ^ places` parts to the unit, as a decimal without trailing zeros. -/
def decimal (count places : Nat) : String :=
  let whole := toString (count / Nat.pow 10 places)
  let digits := (Nat.toDigits 10 (count % Nat.pow 10 places))
  let padded := List.replicate (places - digits.length) '0' ++ digits
  let fraction := (padded.reverse.dropWhile (· == '0')).reverse
  if fraction.isEmpty then whole else whole ++ "." ++ String.ofList fraction

def text (d : Duration) : String :=
  let n := d.nanoseconds
  if n ≥ 1000000000 then decimal n 9 ++ "s"
  else if n ≥ 1000000 then decimal n 6 ++ "ms"
  else if n ≥ 1000 then decimal n 3 ++ "µs"
  else toString n ++ "ns"

end Duration
end ModularHost
