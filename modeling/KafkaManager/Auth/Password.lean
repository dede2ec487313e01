import KafkaManager.Config.Crypto
import KafkaManager.Lib.GoInt
import KafkaManager.Lib.Utf8

/-!
# Password hashes (`VerifyPassword` in `internal/auth/password.go`)

Argon2id is a parameter; it panics when it is to make no pass or to use no
thread, which is `none`.
-/

namespace KafkaManager.Auth

open Lib

def argonMemory : Nat := 64 * 1024

/-- `argon2.IDKey`: password, salt, time, memory, threads and length of the
key. -/
abbrev IDKey : Type :=
  List UInt8 → List UInt8 → Nat → Nat → Nat → Nat → Option (List UInt8)

/-! ## `fmt.Sscanf(s, "m=%d,t=%d,p=%d", ...)` -/

def scanText (text s : List Char) : Option (List Char) :=
  if text.isPrefixOf s then some (s.drop text.length) else none

/-- Space before a number; a line break is an error. -/
def scanSpace : List Char → Option (List Char)
  | [] => some []
  | c :: rest =>
      if c == '\n' then none else if isSpace c then scanSpace rest else some (c :: rest)

/-- `%d` into an unsigned integer of so many bits. -/
def scanUint (bits : Nat) (s : List Char) : Option (Nat × List Char) :=
  match scanSpace s with
  | none => none
  | some s =>
      let digits := s.takeWhile Char.isDigit
      let n := Nat.ofDigitChars 10 digits 0
      if digits.isEmpty ∨ n ≥ 2 ^ bits then none else some (n, s.dropWhile Char.isDigit)

structure ArgonParams where
  memory : Nat
  iterations : Nat
  parallelism : Nat

def scanParams (s : List Char) : Option ArgonParams := do
  let s ← scanText ['m', '='] s
  let (memory, s) ← scanUint 32 s
  let s ← scanText [',', 't', '='] s
  let (iterations, s) ← scanUint 32 s
  let s ← scanText [',', 'p', '='] s
  let (parallelism, _) ← scanUint 8 s
  some ⟨memory, iterations, parallelism⟩

/-- `VerifyPassword`; `none` if Argon2id panics. -/
def verifyPassword (idKey : IDKey) (encoded password : String) : Option Bool :=
  match encoded.toList.splitOn '$' with
  | [_, algorithm, version, params, salt, key] =>
      if algorithm ≠ "argon2id".toList ∨ version ≠ "v=19".toList then some false
      else
        match scanParams params with
        | none => some false
        | some p =>
            if p.memory > argonMemory ∨ p.iterations > 10 ∨ p.parallelism > 8 then some false
            else
              match rawStdDecode salt, rawStdDecode key with
              | some salt, some want =>
                  if want.isEmpty then some false
                  else
                    (idKey (utf8 password.toList) salt p.iterations p.memory p.parallelism
                      want.length).map fun got => got == want
              | _, _ => some false
  | _ => some false

end KafkaManager.Auth
