/-!
The powers of two and of ten, as functions of a natural exponent.

They have names of their own because both bases occur everywhere below: two counts bits and ten
counts decimal places.
-/
namespace ScriptBridge.Number

def twoTo (n : Nat) : Nat := Nat.pow 2 n

def tenTo (n : Nat) : Nat := Nat.pow 10 n

theorem twoTo_pos (n : Nat) : 0 < twoTo n := Nat.two_pow_pos n

theorem twoTo_log2_le {n : Nat} (h : n ≠ 0) : twoTo n.log2 ≤ n := Nat.log2_self_le h

end ScriptBridge.Number
