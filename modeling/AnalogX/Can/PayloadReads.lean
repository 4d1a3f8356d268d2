import AnalogX.Can.WorkerRuns

namespace AnalogX
namespace Can

/-!
# Which payload bytes the worker reads

A frame carries a payload only if it is a data frame, and then at most eight
bytes whatever its DLC field says.  Two places of the receive path read payload
bytes: the debug dump, driven by the DLC field, and the configuration handler,
which reads the first byte.  Neither looks at the RTR bit.  This module lists the
reads of one processed frame and says exactly for which frames all of them stay
within what was received.
-/

open Kernel Firmware Foundations

/-- The payload indices read while one frame is processed. -/
def readsOf (rxMsg : CanRxFrame) (fw : State) : List Nat :=
  payloadReads ((processFrame rxMsg fw).trace.drop fw.trace.length)

/-- Byte `index` of the payload was actually received with the frame. -/
def Carries (rxMsg : CanRxFrame) (index : Nat) : Prop :=
  rxMsg.rtr = canRtrData ∧ index < min rxMsg.dlc.toNat 8

/-- The frames for which every read is covered by what was received: no byte is
read at all, or the frame is a data frame that does not send the dump past the
eight bytes. -/
def ReadsCovered (range : AddressRange) (level : LoggingLevel) (rxMsg : CanRxFrame) : Prop :=
  rxMsg.dlc = 0 ∨ (level ≠ .debug ∧ ¬ range.Configures rxMsg) ∨
    (rxMsg.rtr = canRtrData ∧ (level = .debug → rxMsg.dlc.toNat ≤ 8))

theorem debug_le_code (level : LoggingLevel) :
    LoggingLevel.debug.code ≤ level.code ↔ level = .debug := by
  cases level <;> decide

/-- The reads of the dump, followed by the read of an accepted configuration. -/
theorem readsOf_eq {range : AddressRange} (rxMsg : CanRxFrame) {fw : State}
    (address : fw.canBaseAddress = range.base) :
    readsOf rxMsg fw =
      (if fw.loggingLevel = .debug then List.range rxMsg.dlc.toNat else []) ++
        if range.Accepts rxMsg then [0] else [] := by
  have dumpAddress : (fw.emit (rxDump "SYS_CAN:     " rxMsg fw.loggingLevel)).canBaseAddress =
      range.base := address
  unfold readsOf processFrame
  rw [logCanRxMessage_eq_emit]
  by_cases configures : range.Configures rxMsg
  · rcases (range.configures_iff rxMsg).mp configures with accepted | rejected
    · rw [dispatchCanRx_of_accepts dumpAddress accepted, if_pos accepted]
      simp only [State.emit_emit, State.emit_trace, List.drop_left, payloadReads_append,
        payloadReads_rxDump, debug_le_code]
      rfl
    · rw [dispatchCanRx_of_rejects dumpAddress rejected, if_neg rejected.not_accepts]
      simp only [State.logInfo, State.logAt, State.emit_emit, State.emit_trace, List.drop_left,
        payloadReads_append, payloadReads_rxDump, debug_le_code]
      congr 1
      split <;> rfl
  · have notAccepted : ¬ range.Accepts rxMsg := fun accepted => configures accepted.1
    rw [dispatchCanRx_of_not_configures dumpAddress configures, if_neg notAccepted]
    simp only [State.emit_trace, List.drop_left, payloadReads_rxDump, debug_le_code,
      List.append_nil]

theorem mem_readsOf {range : AddressRange} {rxMsg : CanRxFrame} {fw : State}
    (address : fw.canBaseAddress = range.base) (index : Nat) :
    index ∈ readsOf rxMsg fw ↔
      (fw.loggingLevel = .debug ∧ index < rxMsg.dlc.toNat) ∨
        (range.Accepts rxMsg ∧ index = 0) := by
  rw [readsOf_eq rxMsg address, List.mem_append, List.mem_ite_nil_right, List.mem_ite_nil_right,
    List.mem_range, List.mem_singleton]

theorem toNat_pos_of_dlc_ne_zero {rxMsg : CanRxFrame} (carried : rxMsg.dlc ≠ 0) :
    1 ≤ rxMsg.dlc.toNat := by
  apply Nat.pos_of_ne_zero
  intro zero
  exact carried (BitVec.eq_of_toNat_eq zero)

theorem readsCovered_of_carries {range : AddressRange} {rxMsg : CanRxFrame} {fw : State}
    (address : fw.canBaseAddress = range.base)
    (carried : ∀ index ∈ readsOf rxMsg fw, Carries rxMsg index) :
    ReadsCovered range fw.loggingLevel rxMsg := by
  by_cases empty : rxMsg.dlc = 0
  · exact Or.inl empty
  · have positive := toNat_pos_of_dlc_ne_zero empty
    by_cases debug : fw.loggingLevel = .debug
    · have last := carried (rxMsg.dlc.toNat - 1)
        ((mem_readsOf address _).mpr (Or.inl ⟨debug, by omega⟩))
      refine Or.inr (Or.inr ⟨last.1, ?_⟩)
      intro _
      have bound := last.2
      omega
    · by_cases configures : range.Configures rxMsg
      · have first := carried 0 ((mem_readsOf address _).mpr (Or.inr ⟨⟨configures, positive⟩, rfl⟩))
        exact Or.inr (Or.inr ⟨first.1, fun atDebug => absurd atDebug debug⟩)
      · exact Or.inr (Or.inl ⟨debug, configures⟩)

theorem carries_of_readsCovered {range : AddressRange} {rxMsg : CanRxFrame} {fw : State}
    (address : fw.canBaseAddress = range.base)
    (covered : ReadsCovered range fw.loggingLevel rxMsg) :
    ∀ index ∈ readsOf rxMsg fw, Carries rxMsg index := by
  intro index member
  rcases (mem_readsOf address index).mp member with ⟨debug, inside⟩ | ⟨accepted, first⟩
  · rcases covered with empty | ⟨notDebug, _⟩ | ⟨data, bounded⟩
    · rw [empty] at inside
      exact absurd inside (Nat.not_lt_zero _)
    · exact absurd debug notDebug
    · exact ⟨data, Nat.lt_min.mpr ⟨inside, Nat.lt_of_lt_of_le inside (bounded debug)⟩⟩
  · have positive := accepted.2
    rcases covered with empty | ⟨_, other⟩ | ⟨data, _⟩
    · rw [empty] at positive
      exact absurd positive (Nat.not_succ_le_zero _)
    · exact absurd accepted.1 other
    · refine ⟨data, ?_⟩
      rw [first]
      exact Nat.lt_min.mpr ⟨positive, by decide⟩

/-- In every reachable state, at every logging level, exactly the covered frames
are processed without reading a byte that was not received. -/
theorem reads_carried_iff (pins : Pins) (wakeups : List Wakeup) (level : Nat)
    (rxMsg : CanRxFrame) :
    (∀ index ∈ readsOf rxMsg ((canWorker pins wakeups).setLoggingLevel level),
        Carries rxMsg index) ↔
      ReadsCovered pins.range ((canWorker pins wakeups).setLoggingLevel level).loggingLevel
        rxMsg := by
  have address : ((canWorker pins wakeups).setLoggingLevel level).canBaseAddress =
      pins.range.base := by
    rw [State.setLoggingLevel_canBaseAddress, canWorker_canBaseAddress]
  exact ⟨readsCovered_of_carries address, carries_of_readsCovered address⟩

/-- A remote request for the configuration identifier, with a DLC of one. -/
def remoteConfiguration : CanRxFrame where
  fmi := 0
  time := 0
  dlc := 1
  rtr := 1
  ide := 1
  ident := 0xE4603
  data8 := fun _ => 0

/-- A data frame of another node whose DLC field is nine. -/
def overlongFrame : CanRxFrame where
  fmi := 0
  time := 0
  dlc := 9
  rtr := 0
  ide := 0
  ident := 0x123
  data8 := fun _ => 0

/-- At the default level the handler stores a byte of a remote frame; at the debug
level the dump runs past the eight payload bytes. -/
theorem uncarried_reads :
    (0 ∈ readsOf remoteConfiguration ((canWorker ⟨false, false, false⟩ []).setLoggingLevel 1) ∧
      ¬ Carries remoteConfiguration 0) ∧
    (8 ∈ readsOf overlongFrame ((canWorker ⟨false, false, false⟩ []).setLoggingLevel 2) ∧
      ¬ Carries overlongFrame 8) := by
  have address : ∀ level, ((canWorker ⟨false, false, false⟩ []).setLoggingLevel level).canBaseAddress =
      (Pins.mk false false false).range.base := by
    intro level
    rw [State.setLoggingLevel_canBaseAddress, canWorker_canBaseAddress]
  have configurationRead : 0 ∈ readsOf remoteConfiguration
      ((canWorker ⟨false, false, false⟩ []).setLoggingLevel 1) :=
    (mem_readsOf (address 1) 0).mpr (Or.inr (by decide))
  have dumpRead : 8 ∈ readsOf overlongFrame
      ((canWorker ⟨false, false, false⟩ []).setLoggingLevel 2) :=
    (mem_readsOf (address 2) 8).mpr (Or.inl (by decide))
  refine ⟨⟨configurationRead, ?_⟩, ⟨dumpRead, ?_⟩⟩
  · rintro ⟨data, _⟩
    exact absurd data (by decide)
  · rintro ⟨_, inside⟩
    exact absurd inside (by decide)

end Can
end AnalogX
