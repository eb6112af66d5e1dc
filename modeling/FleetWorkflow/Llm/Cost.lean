import Mathlib.Algebra.Order.Field.Rat
import Mathlib.Tactic.Ring
import FleetWorkflow.Python.Value

/-!
# Token usage and its cost

The usage block of a reply of the proxy gives the token counts of a call; input tokens that were read
from a cache have a price of their own.
-/

namespace FleetWorkflow.Llm

open Python

/-- Token counts for one call. -/
structure Usage where
  tokIn : ℤ
  tokOut : ℤ
  tokCached : ℤ
deriving DecidableEq, Repr

/-- `value or fallback`. -/
def orElse (value fallback : Json) : Json := if value.truthy then value else fallback

/-- `int(value)`. -/
def toInt (py : Builtins) : Json → Except Exc ℤ
  | .int n => .ok n
  | value => py.int value

/-- `parse_usage(body)`. -/
def parseUsage (py : Builtins) (body : Dict) : Except Exc Usage := do
  let usage := orElse ((Json.get? body "usage").getD .null) (.obj [])
  let details := orElse (← usage.getOr "prompt_tokens_details" .null) (.obj [])
  let tokIn ← toInt py (orElse (← usage.getOr "prompt_tokens" (.int 0)) (.int 0))
  let tokOut ← toInt py (orElse (← usage.getOr "completion_tokens" (.int 0)) (.int 0))
  let tokCached ← toInt py (orElse (← details.getOr "cached_tokens" (.int 0)) (.int 0))
  return ⟨tokIn, tokOut, tokCached⟩

/-- `compute_cost(usage, ...)`; input tokens without a cached price are all billed at the input price. -/
def computeCost (usage : Usage) (inputPricePer1k outputPricePer1k : ℚ) (cachedInputPricePer1k : Option ℚ) : ℚ :=
  let cached := min usage.tokCached usage.tokIn
  let uncachedIn := usage.tokIn - cached
  let cachedPrice := cachedInputPricePer1k.getD inputPricePer1k
  uncachedIn / 1000 * inputPricePer1k + cached / 1000 * cachedPrice + usage.tokOut / 1000 * outputPricePer1k

/-! ## What is billed -/

/-- The counts of a report. -/
structure Usage.Counts (usage : Usage) : Prop where
  tokIn : 0 ≤ usage.tokIn
  tokOut : 0 ≤ usage.tokOut
  tokCached : 0 ≤ usage.tokCached

variable {usage : Usage} {input output : ℚ}

/-- Cached tokens are among the input tokens: each part is billed at its own price. -/
theorem computeCost_cached {cached : ℚ} (h : usage.tokCached ≤ usage.tokIn) :
    computeCost usage input output (some cached) =
      ((usage.tokIn - usage.tokCached) * input + usage.tokCached * cached + usage.tokOut * output) / 1000 := by
  simp only [computeCost, min_eq_left h, Option.getD_some]
  push_cast
  ring

/-- A report without cached tokens costs the same with and without a cached price. -/
theorem computeCost_eq_uncached (cached : Option ℚ) (hcounts : usage.Counts) (h : usage.tokCached = 0) :
    computeCost usage input output cached = computeCost usage input output none := by
  have hmin : min usage.tokCached usage.tokIn = 0 := by rw [h, min_eq_left hcounts.tokIn]
  simp only [computeCost, hmin]
  simp

end FleetWorkflow.Llm
