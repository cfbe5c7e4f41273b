import Synopsis.Pattern.Basic
import Synopsis.Bindings
import Synopsis.Property

/-!
# Accumulators

When the arguments fit, every name of the usage has a final value. An accumulator
is given these one after the other and makes the result of them.
-/

namespace Synopsis

structure Entry where
  kind : SlotKind
  name : String
  value : Value
  deriving DecidableEq, Repr

structure Accumulator (σ : Type) where
  start : σ
  store : Entry → σ → Except UsageError σ

namespace Accumulator

variable {σ : Type}

def run (a : Accumulator σ) (entries : List Entry) : Except UsageError σ :=
  entries.foldlM (fun state e => a.store e state) a.start

def bindings : Accumulator Bindings where
  start := .empty
  store e b := .ok (b.insert e.name e.value)

def record : Accumulator (List Entry) where
  start := []
  store e entries := .ok (entries ++ [e])

/-- A target whose properties are set through a table. -/
def typed (start : σ) (table : FieldTable σ) : Accumulator σ where
  start := start
  store e target := table.set e.name e.value target

/-- Numbered slots, one for each field in order. -/
def fields (fields : List (String × FieldKind)) : Accumulator (List (List Value)) :=
  typed (fields.map fun _ => []) (.ofFields fields)

end Accumulator

end Synopsis
