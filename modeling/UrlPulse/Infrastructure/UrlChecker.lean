import UrlPulse.Core.Models

namespace UrlPulse.Infrastructure

open UrlPulse.Core

/-- How `HttpClient.GetAsync` ends under the timeout token: with a response
after some milliseconds, or with any exception. -/
inductive HttpOutcome where
  | response (statusCode : Nat) (elapsedMilliseconds : Nat)
  | exception
deriving DecidableEq, Repr

structure HttpClient (World : Type) where
  utcNow : World → DateTime
  getAsync : String → Int32 → World → HttpOutcome × World

/-- `HttpResponseMessage.IsSuccessStatusCode`. -/
def isSuccessStatusCode (statusCode : Nat) : Bool :=
  200 ≤ statusCode && statusCode ≤ 299

/-- The cancellation source is built before the `try`, and its constructor
rejects a timeout below -1 ms (-1 means none). -/
def checkUrlAsync {World : Type} (httpClient : HttpClient World) : IUrlChecker World :=
  fun url timeoutMs world =>
    let checkedAt := httpClient.utcNow world
    if timeoutMs < -1 then .error .argumentOutOfRange
    else match httpClient.getAsync url timeoutMs world with
      | (.response statusCode elapsedMilliseconds, after) =>
          .ok ({ isUp := isSuccessStatusCode statusCode
                 latencyMs := some elapsedMilliseconds
                 checkedAt, statusCode }, after)
      | (.exception, after) =>
          .ok ({ isUp := false, latencyMs := none, checkedAt, statusCode := 0 }, after)

namespace HttpClient

variable {World : Type}

/-- Time only moves forward while a request is out. -/
def Forward (httpClient : HttpClient World) : Prop :=
  ∀ url timeoutMs world,
    httpClient.utcNow world ≤ httpClient.utcNow (httpClient.getAsync url timeoutMs world).2

/-- A request takes at most its timeout. -/
def Timely (httpClient : HttpClient World) : Prop :=
  ∀ url timeoutMs world, 0 ≤ timeoutMs →
    httpClient.utcNow (httpClient.getAsync url timeoutMs world).2 ≤
      httpClient.utcNow world + timeoutMs.toInt.toNat * TimeSpan.ticksPerMillisecond

end HttpClient

theorem checkUrlAsync_ok {World : Type} {httpClient : HttpClient World} {url : String}
    {timeoutMs : Int32} {world after : World} {result : UrlCheckResult}
    (checked : checkUrlAsync httpClient url timeoutMs world = .ok (result, after)) :
    result.checkedAt = httpClient.utcNow world ∧
      after = (httpClient.getAsync url timeoutMs world).2 := by
  simp only [checkUrlAsync] at checked
  split at checked
  · contradiction
  · split at checked <;> rename_i got <;> cases checked <;> exact ⟨rfl, by rw [got]⟩

section

variable {World : Type} {httpClient : HttpClient World} {url : String} {timeoutMs : Int32}
  {world after : World} {result : UrlCheckResult}

theorem checkUrlAsync_allowed
    (checked : checkUrlAsync httpClient url timeoutMs world = .ok (result, after)) :
    ¬ timeoutMs < -1 := by
  intro low
  simp only [checkUrlAsync, if_pos low] at checked
  contradiction

/-- Past the constructor everything is caught. -/
theorem checkUrlAsync_total (allowed : ¬ timeoutMs < -1) (world : World) :
    ∃ outcome, checkUrlAsync httpClient url timeoutMs world = .ok outcome := by
  simp only [checkUrlAsync, if_neg allowed]
  rcases httpClient.getAsync url timeoutMs world with ⟨outcome, next⟩
  cases outcome with
  | response statusCode elapsedMilliseconds => exact ⟨_, rfl⟩
  | exception => exact ⟨_, rfl⟩

theorem checkUrlAsync_isUp
    (checked : checkUrlAsync httpClient url timeoutMs world = .ok (result, after)) :
    result.isUp = isSuccessStatusCode result.statusCode := by
  simp only [checkUrlAsync, if_neg (checkUrlAsync_allowed checked)] at checked
  split at checked <;> cases checked <;> rfl

end

end UrlPulse.Infrastructure
