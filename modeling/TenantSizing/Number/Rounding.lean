namespace TenantSizing

/-- The natural number nearest to `num / den`; of two equally near ones the even. -/
def roundHalfEven (num den : Nat) : Nat :=
  let low := num / den
  let rest := num % den
  if 2 * rest < den then low
  else if den < 2 * rest then low + 1
  else low + low % 2

end TenantSizing
