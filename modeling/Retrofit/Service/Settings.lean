import Retrofit.Optimiser.Registry
import Retrofit.Text.Blank
import Retrofit.Text.Digits

/-!
# Settings of the service

The service is set up by named variables, each a text that may be missing. Counts are positive whole
numbers; blanks around them do not matter.
-/

namespace Retrofit

structure ServiceSettings where
  queueCapacity : Nat
  simulatorUrl : String
  /-- Without a place to send them to, results stay in memory. -/
  resultStoreUrl : Option String
  /-- The number of threads of tasks that leave it open. -/
  maxConcurrency : Nat
deriving DecidableEq

namespace ServiceSettings

def default (processors : Nat) : ServiceSettings where
  queueCapacity := 64
  simulatorUrl := "http://localhost:8760"
  resultStoreUrl := none
  maxConcurrency := processors

/-- The number that decimal digits stand for, if it fits a 64-bit word. -/
def ofDigits? (digits : List Char) : Option Nat :=
  if digits.isEmpty || !digits.all Char.isDigit then none
  else
    let n := Text.decimalValue digits
    if n < UInt64.size then some n else none

/-- Reads a number, with an optional plus sign, between blanks. -/
def count? (value : String) : Option Nat :=
  match Text.trim value.toList with
  | '+' :: digits => ofDigits? digits
  | digits => ofDigits? digits

/-- The number that a variable holds, or its default. -/
def readCount (lookup : String → Option String) (name : String) (default : Nat) :
    Except ConfigurationError Nat :=
  match lookup name with
  | none => .ok default
  | some value =>
    match count? value with
    | some n => .ok n
    | none => .error (.invalidVariable name value)

/-- Reads the variables; the number of processors stands in for a missing number of threads. -/
def ofVariables (processors : Nat) (lookup : String → Option String) :
    Except ConfigurationError ServiceSettings := do
  let d := default processors
  let queueCapacity ← readCount lookup "QUEUE_CAPACITY" d.queueCapacity
  if queueCapacity = 0 then throw .nonPositiveCapacity
  let maxConcurrency ← readCount lookup "MAX_CONCURRENCY" d.maxConcurrency
  if maxConcurrency = 0 then throw (.invalidVariable "MAX_CONCURRENCY" "0")
  return {
    queueCapacity
    simulatorUrl := (lookup "SIMULATOR_URL").getD d.simulatorUrl
    resultStoreUrl := (lookup "RESULT_STORE_URL").filter (· ≠ "")
    maxConcurrency }

end ServiceSettings

end Retrofit
