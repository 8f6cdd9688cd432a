import SmartScale.Base.CString
import SmartScale.Wifi.ScanConnect

/-!
The Wi-Fi credentials on their way from `wifi_comm_start` to the driver
(`wifi/wifi_comm.c`): two copies, through four buffers.

The buffers of `wifi_comm.c` hold a terminator and so one byte less than an SSID or a
pre-shared key may have. `credentials_intact_iff` says that nothing else is lost, and
`full_ssid_never_found` what a cut SSID does to the scan.
-/

namespace SmartScale.Wifi

open SmartScale.CString SmartScale.Schedule

/-! ### Legal credentials -/

/-- An SSID of 1 to 32 bytes. -/
structure LegalSsid (ssid : CString) : Prop where
  nulFree : NulFree ssid
  pos : 1 ≤ ssid.length
  le : ssid.length ≤ 32

/-- An ASCII hex digit. -/
def isHexDigit (b : UInt8) : Bool :=
  decide (48 ≤ b ∧ b ≤ 57) || decide (65 ≤ b ∧ b ≤ 70) || decide (97 ≤ b ∧ b ≤ 102)

/-- A passphrase of 8 to 63 characters, or a pre-shared key of 64 hex digits. -/
inductive LegalSecret (secret : CString) : Prop where
  | passphrase (nulFree : NulFree secret) (lower : 8 ≤ secret.length) (upper : secret.length ≤ 63)
  | psk (length : secret.length = 64) (digits : ∀ b ∈ secret, isHexDigit b = true)

theorem LegalSecret.nulFree {secret : CString} (legal : LegalSecret secret) : NulFree secret := by
  cases legal with
  | passphrase nulFree _ _ => exact nulFree
  | psk _ digits =>
      rintro b hb rfl
      exact absurd (digits 0 hb) (by decide)

/-! ### The copies -/

/-- `s_target_ssid` and `s_target_pass`. -/
structure Credentials where
  sTargetSsid : Vector UInt8 32
  sTargetPass : Vector UInt8 64

/-- The two buffers as the program starts. -/
def Credentials.zero : Credentials := ⟨Vector.replicate 32 0, Vector.replicate 64 0⟩

/-- `wifi_comm_start`, what it does to the two buffers. -/
def wifiCommStartCopies (c : Credentials) (ssid password : CString) : Credentials where
  sTargetSsid := strlcpy c.sTargetSsid ssid
  sTargetPass := strlcpy c.sTargetPass password

/-- `wifi_sta_config_t`, the two fields that are written. -/
structure StaConfig where
  ssid : Vector UInt8 32
  password : Vector UInt8 64

/-- The other bytes of `sta_cfg` are zero. -/
def StaConfig.zero : StaConfig := ⟨Vector.replicate 32 0, Vector.replicate 64 0⟩

/-- `sta_cfg`, as `wifi_connect_task` hands it to the driver. -/
def staCfg (c : Credentials) : StaConfig where
  ssid := strlcpy StaConfig.zero.ssid (denotes c.sTargetSsid)
  password := strlcpy StaConfig.zero.password (denotes c.sTargetPass)

/-- The string `wifi_scan_task` compares the scan record with. -/
def scanTarget (c : Credentials) : CString := denotes c.sTargetSsid

/-- Every buffer on the way denotes what was given. A field of `sta_cfg` needs no terminator. -/
structure Intact (c : Credentials) (ssid secret : CString) : Prop where
  compared : scanTarget c = ssid
  ssid_eq : denotes (staCfg c).ssid = ssid
  password_eq : denotes (staCfg c).password = secret

section Copies

variable {c : Credentials} {ssid secret : CString}

theorem denotes_staCfg (c : Credentials) (nulFree : NulFree ssid) (nulFree' : NulFree secret) :
    denotes (staCfg (wifiCommStartCopies c ssid secret)).ssid = ssid.take 31 ∧
      denotes (staCfg (wifiCommStartCopies c ssid secret)).password = secret.take 63 :=
  ⟨denotes_strlcpy_strlcpy c.sTargetSsid StaConfig.zero.ssid nulFree,
    denotes_strlcpy_strlcpy c.sTargetPass StaConfig.zero.password nulFree'⟩

/-- **When the credentials survive**: the SSID and the secret leave room for a terminator. -/
theorem credentials_intact_iff (c : Credentials) (legal : LegalSsid ssid)
    (legal' : LegalSecret secret) :
    Intact (wifiCommStartCopies c ssid secret) ssid secret ↔
      ssid.length ≤ 31 ∧ secret.length ≤ 63 := by
  obtain ⟨ssid_eq, password_eq⟩ := denotes_staCfg c legal.nulFree legal'.nulFree
  have compared : scanTarget (wifiCommStartCopies c ssid secret) = ssid ↔ ssid.length ≤ 31 :=
    denotes_strlcpy_iff c.sTargetSsid legal.nulFree
  constructor
  · intro intact
    refine ⟨compared.mp intact.compared, ?_⟩
    rw [← List.take_eq_self_iff, ← password_eq]
    exact intact.password_eq
  · rintro ⟨short, short'⟩
    refine ⟨compared.mpr short, ?_, ?_⟩
    · rw [ssid_eq, List.take_of_length_le short]
    · rw [password_eq, List.take_of_length_le short']

end Copies

/-- A string of `k` letters. -/
def letters (k : Nat) : CString := List.replicate k 97

theorem nulFree_letters (k : Nat) : NulFree (letters k) := nulFree_replicate (by decide) k

@[simp] theorem length_letters (k : Nat) : (letters k).length = k := List.length_replicate

/-- An SSID of 31 bytes with a passphrase of 63. -/
theorem credentials_intact_iff_longest :
    Intact (wifiCommStartCopies .zero (letters 31) (letters 63)) (letters 31) (letters 63) :=
  (credentials_intact_iff .zero ⟨nulFree_letters 31, by simp, by simp⟩
    (.passphrase (nulFree_letters 63) (by simp) (by simp))).mpr ⟨by simp, by simp⟩

/-- An SSID of 32 bytes loses the last one. -/
theorem full_ssid_cut :
    ¬ ∀ (c : Credentials) (ssid secret : CString), LegalSsid ssid → LegalSecret secret →
      Intact (wifiCommStartCopies c ssid secret) ssid secret := by
  intro claimed
  have compared := (claimed .zero (letters 32) (letters 8)
    ⟨nulFree_letters 32, by simp, by simp⟩
    (.passphrase (nulFree_letters 8) (by simp) (by simp))).compared
  have short := (denotes_strlcpy_iff Credentials.zero.sTargetSsid (nulFree_letters 32)).mp compared
  simp at short

/-! ### The scan -/

section Scan

variable {target : CString} {records : List WifiApRecord} {s t : ScanConnect}

/-- Where no record carries the target, the scan task leaves the flag as it is. -/
theorem wifiScanTask_unfound (unfound : ∀ ap ∈ records, ap.ssid ≠ target)
    (enabled : wifiScanTask target records s = some t) :
    t.sScanSuccessful = s.sScanSuccessful := by
  cases wifiScanTask_iff.mp enabled with
  | compared apCount _ =>
      have none_found : ((records.take apCount).head?.any fun ap => ap.ssid = target) = false := by
        rw [Option.any_eq_false]
        intro ap first
        exact decide_eq_false (unfound ap (List.mem_of_mem_take (List.mem_of_head? first)))
      dsimp only
      rw [none_found, Bool.or_false]
  | _ => rfl

/-- Nobody else sets it. -/
theorem scanStep_unfound (unfound : ∀ ap ∈ records, ap.ssid ≠ target) {a : ScanAction}
    (enabled : scanStep target records s a = some t) :
    t.sScanSuccessful = s.sScanSuccessful := by
  rcases scanStep_cases enabled with scans | ⟨bits, scanning, connect, rfl, _⟩
  · exact wifiScanTask_unfound unfound scans
  · rfl

end Scan

/-- **An SSID of full length is never found**, whatever the scan returns for it: the station
does not connect. -/
theorem full_ssid_never_found (c : Credentials) {ssid secret : CString} (legal : LegalSsid ssid)
    (full : ssid.length = 32) {records : List WifiApRecord} (named : ∀ ap ∈ records, ap.ssid = ssid)
    (actions : List ScanAction) :
    AllStates (scanStep (scanTarget (wifiCommStartCopies c ssid secret)) records)
      (fun s => s.sScanSuccessful = false) ScanConnect.start actions := by
  have cut : scanTarget (wifiCommStartCopies c ssid secret) ≠ ssid := by
    intro same
    have short := (denotes_strlcpy_iff c.sTargetSsid legal.nulFree).mp same
    omega
  have unfound : ∀ ap ∈ records, ap.ssid ≠ scanTarget (wifiCommStartCopies c ssid secret) :=
    fun ap member same => cut (same.symm.trans (named ap member))
  refine allStates_of_invariant (I := fun s : ScanConnect => s.sScanSuccessful = false) ?_ rfl
    actions
  exact fun s a t unset enabled => (scanStep_unfound unfound enabled).trans unset

end SmartScale.Wifi
