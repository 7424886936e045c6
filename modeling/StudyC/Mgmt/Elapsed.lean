import Mathlib.Algebra.Order.Field.Rat
import Mathlib.Tactic.Linarith
import StudyC.Mgmt.Latency

/-!
# Microseconds between two times

`mgmt_response_latency_us` cuts both times to whole microseconds before it subtracts. The cuts
differ by less than a microsecond, and in a chain of times they cancel out.
-/

namespace StudyC.Mgmt

def Timespec.nanoseconds (t : Timespec) : Int := t.tvSec.toInt * 1000000000 + t.tvNsec.toInt

/-- The product and the sum are those of the integers. -/
structure Timespec.NoWrap (t : Timespec) : Prop where
  product : ((t.tvSec.toUInt64 * 1000000).toNat : Int) = t.tvSec.toInt * 1000000
  sum : (t.toUs.toNat : Int) = t.tvSec.toInt * 1000000 + t.tvNsec.toInt / 1000

theorem Timespec.Sane.noWrap {t : Timespec} (h : t.Sane) : t.NoWrap := by
  refine ⟨?_, toUs_toNat h⟩
  obtain ⟨⟨hsec, hsec'⟩, -⟩ := h
  have hus := toNat_toUInt64 hsec
  rw [UInt64.toNat_mul]
  simp only [UInt64.toNat_ofNat]
  omega

theorem microseconds_eq (t : Timespec) : t.microseconds = t.nanoseconds / 1000 := by
  unfold Timespec.microseconds Timespec.nanoseconds
  omega

theorem microseconds_mono {a b : Timespec} (h : a.nanoseconds ≤ b.nanoseconds) :
    a.microseconds ≤ b.microseconds := by
  rw [microseconds_eq, microseconds_eq]
  omega

theorem latencyUs_toNat {resp : MgmtCommandResponse} (hreq : resp.requestTimestamp.Sane)
    (hresp : resp.responseTimestamp.Sane) :
    ((mgmtResponseLatencyUs resp).toNat : Int) =
      max 0 (resp.responseTimestamp.microseconds - resp.requestTimestamp.microseconds) := by
  rw [← toUs_toNat hreq, ← toUs_toNat hresp]
  unfold mgmtResponseLatencyUs
  dsimp only
  split
  · rename_i hlt
    rw [gt_iff_lt, UInt64.lt_iff_toNat_lt] at hlt
    rw [UInt64.toNat_sub_of_le _ _ (UInt64.le_of_lt (UInt64.lt_iff_toNat_lt.mpr hlt))]
    omega
  · rename_i hle
    rw [gt_iff_lt, UInt64.lt_iff_toNat_lt] at hle
    rw [UInt64.toNat_zero]
    omega

theorem cuts_differ (a b : Timespec) :
    |((b.microseconds - a.microseconds : Int) : ℚ) - ((b.nanoseconds - a.nanoseconds : Int) :
      ℚ) / 1000| < 1 := by
  -- each cut drops less than a microsecond
  have hlow : (b.nanoseconds - a.nanoseconds) - 1000 <
      (b.microseconds - a.microseconds) * 1000 := by
    rw [microseconds_eq, microseconds_eq]
    omega
  have hhigh : (b.microseconds - a.microseconds) * 1000 <
      (b.nanoseconds - a.nanoseconds) + 1000 := by
    rw [microseconds_eq, microseconds_eq]
    omega
  have hlow' : ((b.nanoseconds - a.nanoseconds : Int) : ℚ) - 1000 <
      ((b.microseconds - a.microseconds : Int) : ℚ) * 1000 := by
    exact_mod_cast hlow
  have hhigh' : ((b.microseconds - a.microseconds : Int) : ℚ) * 1000 <
      ((b.nanoseconds - a.nanoseconds : Int) : ℚ) + 1000 := by
    exact_mod_cast hhigh
  rw [abs_lt]
  constructor
  · linarith
  · linarith

section
variable {resp : MgmtCommandResponse} (hreq : resp.requestTimestamp.Sane)
    (hresp : resp.responseTimestamp.Sane)
include hreq hresp

theorem latency_eq_zero_iff :
    mgmtResponseLatencyUs resp = 0 ↔ resp.responseTimestamp.microseconds ≤
      resp.requestTimestamp.microseconds := by
  have hlatency := latencyUs_toNat hreq hresp
  rw [← UInt64.toNat_inj, UInt64.toNat_zero]
  omega

theorem latency_error
    (hlt : resp.requestTimestamp.microseconds < resp.responseTimestamp.microseconds) :
    |((mgmtResponseLatencyUs resp).toNat : ℚ) -
      ((resp.responseTimestamp.nanoseconds - resp.requestTimestamp.nanoseconds : Int) : ℚ) / 1000| <
        1 := by
  have hlatency := latencyUs_toNat hreq hresp
  have hexact : ((mgmtResponseLatencyUs resp).toNat : Int) =
      resp.responseTimestamp.microseconds - resp.requestTimestamp.microseconds := by omega
  have hcast : ((mgmtResponseLatencyUs resp).toNat : ℚ) =
      ((resp.responseTimestamp.microseconds - resp.requestTimestamp.microseconds : Int) : ℚ) := by
    rw [← hexact, Int.cast_natCast]
  rw [hcast]
  exact cuts_differ _ _

theorem latency_mono {later : MgmtCommandResponse}
    (hsame : later.requestTimestamp = resp.requestTimestamp) (hsane : later.responseTimestamp.Sane)
    (hle : resp.responseTimestamp.nanoseconds ≤ later.responseTimestamp.nanoseconds) :
    mgmtResponseLatencyUs resp ≤ mgmtResponseLatencyUs later := by
  have hlatency := latencyUs_toNat hreq hresp
  have hlater := latencyUs_toNat (hsame ▸ hreq) hsane
  have hmono := microseconds_mono hle
  rw [hsame] at hlater
  rw [UInt64.le_iff_toNat_le]
  omega

theorem latency_anti {later : MgmtCommandResponse}
    (hsame : later.responseTimestamp = resp.responseTimestamp) (hsane : later.requestTimestamp.Sane)
    (hle : resp.requestTimestamp.nanoseconds ≤ later.requestTimestamp.nanoseconds) :
    mgmtResponseLatencyUs later ≤ mgmtResponseLatencyUs resp := by
  have hlatency := latencyUs_toNat hreq hresp
  have hlater := latencyUs_toNat hsane (hsame ▸ hresp)
  have hmono := microseconds_mono hle
  rw [hsame] at hlater
  rw [UInt64.le_iff_toNat_le]
  omega

theorem latency_add {next whole : MgmtCommandResponse}
    (hmiddle : next.requestTimestamp = resp.responseTimestamp) (hsane : next.responseTimestamp.Sane)
    (hfirst : whole.requestTimestamp = resp.requestTimestamp)
    (hlast : whole.responseTimestamp = next.responseTimestamp)
    (hle : resp.requestTimestamp.nanoseconds ≤ resp.responseTimestamp.nanoseconds)
    (hle' : resp.responseTimestamp.nanoseconds ≤ next.responseTimestamp.nanoseconds) :
    (mgmtResponseLatencyUs whole).toNat =
      (mgmtResponseLatencyUs resp).toNat + (mgmtResponseLatencyUs next).toNat := by
  have hlatency := latencyUs_toNat hreq hresp
  have hnext := latencyUs_toNat (hmiddle ▸ hresp) hsane
  have hwhole := latencyUs_toNat (hfirst ▸ hreq) (hlast ▸ hsane)
  have hmono := microseconds_mono hle
  have hmono' := microseconds_mono hle'
  rw [hmiddle] at hnext
  rw [hfirst, hlast] at hwhole
  omega

theorem latency_measures :
    resp.requestTimestamp.NoWrap ∧ resp.responseTimestamp.NoWrap ∧
    ((mgmtResponseLatencyUs resp).toNat : Int) =
      max 0 (resp.responseTimestamp.microseconds - resp.requestTimestamp.microseconds) ∧
    (mgmtResponseLatencyUs resp = 0 ↔
      resp.responseTimestamp.microseconds ≤ resp.requestTimestamp.microseconds) ∧
    (resp.requestTimestamp.microseconds < resp.responseTimestamp.microseconds →
      |((mgmtResponseLatencyUs resp).toNat : ℚ) -
        ((resp.responseTimestamp.nanoseconds - resp.requestTimestamp.nanoseconds : Int) :
          ℚ) / 1000| < 1) ∧
    (∀ later : MgmtCommandResponse, later.requestTimestamp = resp.requestTimestamp →
      later.responseTimestamp.Sane →
      resp.responseTimestamp.nanoseconds ≤ later.responseTimestamp.nanoseconds →
      mgmtResponseLatencyUs resp ≤ mgmtResponseLatencyUs later) ∧
    (∀ later : MgmtCommandResponse, later.responseTimestamp = resp.responseTimestamp →
      later.requestTimestamp.Sane →
      resp.requestTimestamp.nanoseconds ≤ later.requestTimestamp.nanoseconds →
      mgmtResponseLatencyUs later ≤ mgmtResponseLatencyUs resp) ∧
    ∀ next whole : MgmtCommandResponse, next.requestTimestamp = resp.responseTimestamp →
      next.responseTimestamp.Sane →
      whole.requestTimestamp = resp.requestTimestamp → whole.responseTimestamp =
        next.responseTimestamp →
      resp.requestTimestamp.nanoseconds ≤ resp.responseTimestamp.nanoseconds →
      resp.responseTimestamp.nanoseconds ≤ next.responseTimestamp.nanoseconds →
      (mgmtResponseLatencyUs whole).toNat =
        (mgmtResponseLatencyUs resp).toNat + (mgmtResponseLatencyUs next).toNat := by
  refine ⟨hreq.noWrap, hresp.noWrap, latencyUs_toNat hreq hresp, latency_eq_zero_iff hreq hresp,
    latency_error hreq hresp, ?_, ?_, ?_⟩
  · intro later hsame hsane hle
    exact latency_mono hreq hresp hsame hsane hle
  · intro later hsame hsane hle
    exact latency_anti hreq hresp hsame hsane hle
  · intro next whole hmiddle hsane hfirst hlast hle hle'
    exact latency_add hreq hresp hmiddle hsane hfirst hlast hle hle'

end

theorem latency_measures_borrow :
    let resp := { MgmtCommandResponse.zero with
      requestTimestamp := ⟨4, 999999999⟩, responseTimestamp := ⟨5, 1⟩ }
    mgmtResponseLatencyUs resp = 1 ∧
      |((mgmtResponseLatencyUs resp).toNat : ℚ) - ((2 : Int) : ℚ) / 1000| < 1 := by
  intro resp
  have hreq : resp.requestTimestamp.Sane := ⟨by decide, by decide⟩
  have hresp : resp.responseTimestamp.Sane := ⟨by decide, by decide⟩
  obtain ⟨-, -, -, -, herror, -⟩ := latency_measures hreq hresp
  have hexact : resp.responseTimestamp.nanoseconds - resp.requestTimestamp.nanoseconds = 2 := by
    decide
  rw [hexact] at herror
  exact ⟨by decide +kernel, herror (by decide)⟩

end StudyC.Mgmt
