namespace RowStore.Text

/-- A quotient rounded to the nearest integer, a half to the even one. -/
def roundedQuotient (numerator denominator : Nat) : Nat :=
  let quotient := numerator / denominator
  let rest := numerator % denominator
  if rest * 2 < denominator ∨ (rest * 2 = denominator ∧ quotient % 2 = 0) then quotient
  else quotient + 1

/-- The size of a finite number as an integer times a power of two over another: the value is
`numerator / denominator`. -/
def magnitude (bits : UInt64) : Nat × Nat :=
  let fraction := (bits &&& 0xFFFFFFFFFFFFF).toNat
  let exponent := ((bits >>> 52) &&& 0x7FF).toNat
  if exponent = 0 then (fraction, 1 <<< 1074)
  else
    let significand := fraction + 0x10000000000000
    if 1075 ≤ exponent then (significand <<< (exponent - 1075), 1)
    else (significand, 1 <<< (1075 - exponent))

def hundredths (count : Nat) : String :=
  let places := toString (count % 100)
  toString (count / 100) ++ "." ++ (if count % 100 < 10 then "0" ++ places else places)

def twoDecimals (number : Float) : String :=
  let bits := number.toBits
  if number.isNaN then "NaN"
  else
    let sign := if bits >>> 63 = 1 then "-" else ""
    if number.isInf then sign ++ "inf"
    else
      let (numerator, denominator) := magnitude bits
      sign ++ hundredths (roundedQuotient (numerator * 100) denominator)

end RowStore.Text
