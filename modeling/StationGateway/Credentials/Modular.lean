/-!
# Arithmetic modulo a prime

Numbers below a prime, with differences, powers and inverses. The inverse of a number is a power of
it, by Fermat's theorem; that of zero is zero. -/

namespace StationGateway.Credentials.Modular

/-- The difference of two numbers below a modulus. -/
def sub (modulus left right : Nat) : Nat :=
  (left + (modulus - right)) % modulus

/-- A power, by repeated squaring: each binary digit of the exponent takes a step of the budget. -/
def powWithin (modulus : Nat) : Nat → Nat → Nat → Nat
  | 0, _, _ => 1
  | budget + 1, base, exponent =>
      let square := powWithin modulus budget (base * base % modulus) (exponent / 2)
      if exponent % 2 = 1 then base * square % modulus else square

/-- A power of a number. -/
def pow (modulus base exponent : Nat) : Nat :=
  powWithin modulus (exponent.log2 + 1) (base % modulus) exponent

/-- The inverse of a number modulo a prime. -/
def inverse (prime number : Nat) : Nat :=
  pow prime number (prime - 2)

/-- The quotient of two numbers modulo a prime. -/
def divide (prime numerator denominator : Nat) : Nat :=
  numerator * inverse prime denominator % prime

/-- A multiple of an element of a group, by repeated doubling: each binary digit of the factor takes
a step of the budget. -/
def multiple {α : Type} (add : α → α → α) (zero : α) : Nat → Nat → α → α
  | 0, _, _ => zero
  | budget + 1, factor, element =>
      let rest := multiple add zero budget (factor / 2) (add element element)
      if factor % 2 = 1 then add element rest else rest

end StationGateway.Credentials.Modular
