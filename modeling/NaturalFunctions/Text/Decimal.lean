namespace NaturalFunctions

def decimal (n : Nat) : String := String.ofList (Nat.toDigits 10 n)

end NaturalFunctions
