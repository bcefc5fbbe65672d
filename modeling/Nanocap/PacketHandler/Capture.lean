import Nanocap.Foundation.Transitions
import Nanocap.PacketHandler.HandleTcp

/-! # Capture status

Requests to the web server, the import of a file and the processing thread change the
device and the flags that tell what is going on. The device is always the same one,
and it can be opened, started and stopped. -/

namespace Nanocap

structure CaptureStatus where
  capturing : Bool
  importing : Bool
  dev : Option PcapLiveDevice
deriving DecidableEq

namespace CaptureStatus

def initial : CaptureStatus where
  capturing := false
  importing := false
  dev := none

/-! ## The packet handler -/

def startCapture (status : CaptureStatus) : CaptureStatus :=
  { status with capturing := true, dev := some { capturing := true } }

/-- The device is closed, whether it was capturing or not. -/
def stopCapture (status : CaptureStatus) : CaptureStatus :=
  { status with capturing := false, dev := none }

def isLiveCapturing (status : CaptureStatus) : Bool := status.capturing

def isFileImporting (status : CaptureStatus) : Bool := status.importing

/-! ## Entry points -/

inductive Action where
  /-- `/api/v1/capture/start` -/
  | start
  /-- `/api/v1/capture/stop` -/
  | stop
  /-- `/api/v1/capture/toggle` -/
  | toggle
  /-- `/api/v1/capture/destroy` -/
  | destroy
  /-- `analyze_pcap_file` is called. -/
  | beginImport
  /-- `analyze_pcap_file` returns. -/
  | endImport
  /-- `handle_tcp` is called and looks at the maximum size. -/
  | handleTcp (handler : Handler)

def perform (status : CaptureStatus) : Action → CaptureStatus
  | .start => status.startCapture
  | .stop => status.stopCapture
  | .toggle =>
      if status.isFileImporting then status
      else if status.isLiveCapturing then status.stopCapture
      else status.startCapture
  | .destroy =>
      let isCapturing := status.isLiveCapturing
      let stopped := if isCapturing then status.stopCapture else status
      if isCapturing then stopped.startCapture else stopped
  | .beginImport => { status with importing := true }
  | .endImport => { status with importing := false }
  | .handleTcp handler =>
      { status with dev := { handler with dev := status.dev }.checkMaxReached.dev }

/-! ## Truthful states -/

def DeviceCaptures (status : CaptureStatus) : Prop :=
  ∃ dev, status.dev = some dev ∧ dev.capturing = true

/-- No live capture runs during an import, and the status tells whether one runs. -/
structure Truthful (status : CaptureStatus) : Prop where
  exclusive : ¬(status.DeviceCaptures ∧ status.isFileImporting = true)
  live : status.isLiveCapturing = true ↔ status.DeviceCaptures

/-- `handle_tcp` finds that the maximum size has been reached. -/
def AtMaximum (handler : Handler) : Prop :=
  (handler.consumed + 1) % 10000 = 0 ∧ handler.db.maxReached = true

instance (handler : Handler) : Decidable (AtMaximum handler) :=
  inferInstanceAs (Decidable (_ ∧ _))

theorem checkMaxReached_dev (handler : Handler) : handler.checkMaxReached.dev =
    if AtMaximum handler then handler.dev.map fun dev => { dev with capturing := false }
    else handler.dev := by
  by_cases reached : AtMaximum handler
  · rw [if_pos reached]
    exact congrArg Handler.dev (if_pos reached)
  · rw [if_neg reached]
    exact Eq.trans (congrArg Handler.dev (if_neg reached)) rfl

/-- A capture is not started during an import nor the other way round, and no device
is open when the maximum size is found to be reached. -/
def Allowed (status : CaptureStatus) : Action → Prop
  | .start => status.importing = false
  | .beginImport => status.capturing = false
  | .handleTcp handler => AtMaximum handler → status.dev = none
  | .stop | .toggle | .destroy | .endImport => True

/-- A device is open while the flag says that there is a live capture. -/
def FlagsOpen (status : CaptureStatus) : Prop :=
  status.capturing = status.dev.isSome

private theorem perform_flagsOpen (status : CaptureStatus) (action : Action)
    (flags : status.FlagsOpen) : (status.perform action).FlagsOpen := by
  cases action with
  | start | stop => rfl
  | beginImport | endImport => exact flags
  | toggle =>
      dsimp only [perform]
      split
      · exact flags
      · split <;> rfl
  | destroy =>
      dsimp only [perform]
      split
      · rfl
      · exact flags
  | handleTcp handler =>
      change status.capturing = _
      rw [flags, perform, checkMaxReached_dev]
      split
      · exact Option.isSome_map.symm
      · rfl

def idle (importing : Bool) : CaptureStatus := ⟨false, importing, none⟩

def opened (deviceCaptures importing : Bool) : CaptureStatus :=
  ⟨true, importing, some ⟨deviceCaptures⟩⟩

theorem FlagsOpen.cases {status : CaptureStatus} (flags : status.FlagsOpen) :
    (∃ importing, status = idle importing) ∨
      ∃ deviceCaptures importing, status = opened deviceCaptures importing := by
  obtain ⟨capturing, importing, dev⟩ := status
  obtain rfl : capturing = dev.isSome := flags
  cases dev with
  | none => exact .inl ⟨importing, rfl⟩
  | some dev => exact .inr ⟨dev.capturing, importing, rfl⟩

theorem idle_truthful (importing : Bool) : (idle importing).Truthful := by
  have silent : ¬(idle importing).DeviceCaptures := by simp [DeviceCaptures, idle]
  exact ⟨fun both => silent both.1, iff_of_false Bool.false_ne_true silent⟩

@[simp] theorem opened_captures (deviceCaptures importing : Bool) :
    (opened deviceCaptures importing).DeviceCaptures ↔ deviceCaptures = true := by
  simp [DeviceCaptures, opened]

theorem opened_truthful_iff (deviceCaptures importing : Bool) :
    (opened deviceCaptures importing).Truthful ↔ deviceCaptures = true ∧ importing = false := by
  constructor
  · rintro ⟨exclusive, live⟩
    have captures : deviceCaptures = true := (opened_captures ..).mp (live.mp rfl)
    refine ⟨captures, Bool.eq_false_iff.mpr fun importing => exclusive ⟨?_, importing⟩⟩
    exact (opened_captures ..).mpr captures
  · rintro ⟨rfl, rfl⟩
    exact ⟨fun both => absurd both.2 Bool.false_ne_true,
      iff_of_true rfl ((opened_captures ..).mpr rfl)⟩

private theorem idle_handleTcp (importing : Bool) (handler : Handler) :
    (idle importing).perform (.handleTcp handler) = idle importing := by
  rw [perform, checkMaxReached_dev]
  split <;> rfl

private theorem opened_handleTcp (importing : Bool) (handler : Handler) :
    (opened true importing).perform (.handleTcp handler) =
      opened (¬AtMaximum handler) importing := by
  rw [perform, checkMaxReached_dev]
  by_cases reached : AtMaximum handler
  · rw [decide_eq_false (not_not_intro reached)]
    exact congrArg (CaptureStatus.mk true importing) (if_pos reached)
  · rw [decide_eq_true reached]
    exact congrArg (CaptureStatus.mk true importing) (if_neg reached)

private theorem perform_truthful_iff (status : CaptureStatus) (action : Action)
    (flags : status.FlagsOpen) (truthful : status.Truthful) :
    (status.perform action).Truthful ↔ status.Allowed action := by
  rcases flags.cases with ⟨importing, rfl⟩ | ⟨deviceCaptures, importing, rfl⟩
  · cases action with
    | start => exact (opened_truthful_iff true importing).trans (and_iff_right rfl)
    | stop | destroy => exact iff_of_true (idle_truthful importing) trivial
    | toggle =>
        cases importing with
        | false => exact iff_of_true ((opened_truthful_iff ..).mpr ⟨rfl, rfl⟩) trivial
        | true => exact iff_of_true (idle_truthful true) trivial
    | beginImport => exact iff_of_true (idle_truthful true) rfl
    | endImport => exact iff_of_true (idle_truthful false) trivial
    | handleTcp handler =>
        rw [idle_handleTcp]
        exact iff_of_true (idle_truthful importing) fun _ => rfl
  · obtain ⟨rfl, rfl⟩ := (opened_truthful_iff ..).mp truthful
    cases action with
    | start => exact iff_of_true truthful rfl
    | destroy | endImport => exact iff_of_true truthful trivial
    | stop | toggle => exact iff_of_true (idle_truthful false) trivial
    | beginImport => exact (opened_truthful_iff true true).trans (and_iff_right rfl)
    | handleTcp handler =>
        rw [opened_handleTcp, opened_truthful_iff]
        simp [Allowed, opened]

/-- In every state of a run of actions the status is truthful if and only if each of
the actions is allowed when its turn comes. -/
theorem status_truthful_iff (actions : List Action) :
    (∀ first, first <+: actions → (first.foldl perform initial).Truthful) ↔
      ∀ first action, first ++ [action] <+: actions →
        (first.foldl perform initial).Allowed action := by
  have flags : initial.FlagsOpen := rfl
  exact foldl_good_iff perform_flagsOpen perform_truthful_iff flags (idle_truthful false) actions

/-- A capture is started during an import. -/
theorem status_not_truthful :
    ¬∀ (actions : List Action), (actions.foldl perform initial).Truthful := by
  intro truthful
  have started := truthful [.beginImport, .start]
  exact started.exclusive ⟨⟨_, rfl, rfl⟩, rfl⟩

end CaptureStatus

end Nanocap
