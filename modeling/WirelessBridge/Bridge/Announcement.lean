import WirelessBridge.Bridge.Step

/-!
# The announced failure and the broker

A device whose attempts are exhausted has been announced on its status topic once, at the tick
that exhausted them. Whether the broker ever hears of it depends on the connection at that tick:
`setTopic` skips what is set while the connection is down, and nothing sets it again.
-/

namespace WBridge

open Lib HBE System Mqtt

/-- The entry is alone in the table with its name and with its status topic, and nothing else is
published on that topic. -/
structure SoleOwner (pre post : GwtTable) (item : RouterDeviceItem) : Prop where
  devName : ∀ r ∈ pre ++ post, r.devName ≠ item.devName
  statusTopic : ∀ r ∈ pre ++ post, cStr r.statusMqttTopic ≠ cStr item.statusMqttTopic
  valueTopics : ∀ r ∈ pre ++ item :: post, ∀ t ∈ r.valueTopics, cStr t ≠ cStr item.statusMqttTopic

/-- The step is a tick in which the device takes its branch "all attempt exhausted". -/
def TickAnnounces (item : RouterDeviceItem) (p : Bridge × Event) : Prop :=
  ∃ itrTime order blk, p.2 = .tick itrTime order ∧ p.1.deviceItems item.devName = some blk ∧
    Announces item itrTime blk

def Event.IsInputFor (item : RouterDeviceItem) : Event → Prop
  | .update topic _ _ => topic = item.inputMqttTopic
  | _ => False

/-- In the run so far the attempts of the device were exhausted by a tick, taken from a state
with `P`, and no message has come on its input topic since. -/
def AttemptsExhausted (P : Bridge → Prop) (item : RouterDeviceItem)
    (tr : List (Bridge × Event)) : Prop :=
  ∃ tr₁ p tr₂, tr = tr₁ ++ p :: tr₂ ∧ TickAnnounces item p ∧ P p.1 ∧
    ∀ q ∈ tr₂, ¬ q.2.IsInputFor item

variable {table pre post : GwtTable} {item : RouterDeviceItem} {s t : Bridge} {e : Event}

/-! ### What a step publishes -/

/-- Whatever a tick publishes is "error". -/
lemma published_tick (table : GwtTable) (itrTime : ℤ) (s : Bridge) {order : List Str}
    (hnodup : order.Nodup) :
    ∃ qs, (processDeviceList table itrTime order s).published = s.published ++ qs ∧
      ∀ q ∈ qs, q.2 = str "error" := by
  rw [processDeviceList_eq hnodup, Bridge.published_performAll]
  refine ⟨_, rfl, ?_⟩
  intro q hq
  split_ifs at hq
  · obtain ⟨eff, heff, hset⟩ := List.mem_filterMap.mp hq
    obtain ⟨name, -, heff⟩ := List.mem_flatMap.mp heff
    rcases mem_watchdogEffects heff with ⟨v, rfl⟩ | ⟨dl, rfl⟩ | ⟨topic, rfl⟩
    · simp [Effect.setting?] at hset
    · simp [Effect.setting?] at hset
    · obtain rfl : (cStr topic, str "error") = q := by simpa [Effect.setting?] using hset
      rfl
  · simp at hq

/-- A message on another topic publishes nothing on the status topic of the device. -/
lemma published_update (hown : SoleOwner pre post item) (s : Bridge) {topic : Str} (msg : Str)
    (clk : ℕ → ℤ) (htopic : topic ≠ item.inputMqttTopic) :
    ∃ qs, (s.performAll (s.handle (pre ++ item :: post) topic msg clk).effects).published
        = s.published ++ qs ∧ ∀ q ∈ qs, q.1 ≠ cStr item.statusMqttTopic := by
  rw [Bridge.published_performAll]
  refine ⟨_, rfl, ?_⟩
  intro q hq
  split_ifs at hq
  · obtain ⟨eff, heff, hset⟩ := List.mem_filterMap.mp hq
    rcases mem_handle heff with ⟨n, r, hr, heff⟩ | ⟨descr, rfl⟩
    · have hmem : r ∈ pre ++ item :: post := List.mem_of_getElem? hr
      rcases mem_processDevice heff with ⟨hin, rfl | rfl | rfl⟩ | ⟨vt, hvt, m, rfl⟩
      · simp [Effect.setting?] at hset
      · simp [Effect.setting?] at hset
      · obtain rfl : (cStr r.statusMqttTopic, str "ok") = q := by
          simpa [Effect.setting?] using hset
        have hne : r ≠ item := fun h => htopic (h ▸ hin)
        apply hown.statusTopic r
        simpa [hne] using hmem
      · obtain rfl : (cStr vt, m) = q := by simpa [Effect.setting?] using hset
        exact hown.valueTopics r hmem vt hvt
    · simp [Effect.setting?] at hset
  · simp at hq

/-- Once "error" is the last value on the status topic, only a message on the input topic of the
device can change that. -/
lemma Step.error_stays (hown : SoleOwner pre post item) (h : Step (pre ++ item :: post) s e t)
    (hin : ¬ e.IsInputFor item)
    (hlast : lastPublished s.published (cStr item.statusMqttTopic) = some (str "error")) :
    lastPublished t.published (cStr item.statusMqttTopic) = some (str "error") := by
  cases h with
  | tick itrTime horder =>
    obtain ⟨qs, heq, hqs⟩ := published_tick (pre ++ item :: post) itrTime s horder.nodup
    rw [heq]
    exact lastPublished_append_of_agree (fun q hq _ => hqs q hq) hlast
  | update topic msg clk hdefined =>
    obtain ⟨qs, heq, hqs⟩ := published_update hown s msg clk hin
    rw [heq, lastPublished_append_of_ne hqs, hlast]
  | connect => exact hlast
  | disconnect => exact hlast

/-- A tick that exhausts the attempts of the device, taken while connected, leaves "error". -/
lemma Step.error_announced (hown : SoleOwner pre post item)
    (h : Step (pre ++ item :: post) s e t) (hann : TickAnnounces item (s, e))
    (hconn : s.mqtt.connStatus = .connected) :
    lastPublished t.published (cStr item.statusMqttTopic) = some (str "error") := by
  obtain ⟨itrTime, order, blk, rfl, hblk, hann⟩ := hann
  cases h with
  | tick _ horder =>
    change s.deviceItems item.devName = some blk at hblk
    obtain ⟨qs, heq, hqs⟩ := published_tick (pre ++ item :: post) itrTime s horder.nodup
    have hitem : getGwtItem (pre ++ item :: post) item.devName = some item :=
      getGwtItem_eq_some fun r hr => hown.devName r (List.mem_append_left _ hr)
    have hset : Effect.setTopic item.statusMqttTopic (str "error") ∈
        order.flatMap (watchdogEffects (pre ++ item :: post) itrTime s.deviceItems) := by
      refine List.mem_flatMap.mpr ⟨item.devName, (horder.mem_iff _).mpr (by simp [hblk]), ?_⟩
      rw [watchdogEffects, hblk, hitem]
      exact announces_iff.mp hann
    have hqs' : (cStr item.statusMqttTopic, str "error") ∈ qs := by
      rw [processDeviceList_eq horder.nodup, Bridge.published_performAll, hconn, if_pos rfl] at heq
      rw [← List.append_cancel_left heq]
      exact List.mem_filterMap.mpr ⟨_, hset, rfl⟩
    rw [heq]
    exact lastPublished_append_of_mem (fun q hq _ => hqs q hq) ⟨_, hqs', rfl⟩

/-! ### Runs -/

/-- Once a device has been exhausted by a tick that found the connection up, and has not been
heard of since, the broker shows "error" for it, however often the connection went down and came
back. -/
theorem error_published_of_exhausted (hown : SoleOwner pre post item) {clk : ℕ → ℤ}
    {mqtt : CMqttConnection} {tr : List (Bridge × Event)}
    (hrun : Run (Step (pre ++ item :: post)) (.started (pre ++ item :: post) clk mqtt) tr s)
    (hexh : AttemptsExhausted (·.mqtt.connStatus = .connected) item tr) :
    lastPublished s.published (cStr item.statusMqttTopic) = some (str "error") := by
  obtain ⟨tr₁, p, tr₂, rfl, hann, hconn, hsince⟩ := hexh
  obtain ⟨-, t, hstep, hrest⟩ := hrun.split_at
  have hstart : lastPublished t.published (cStr item.statusMqttTopic) = some (str "error") :=
    hstep.error_announced hown hann hconn
  refine hrest.preserves
    (P := fun s => lastPublished s.published (cStr item.statusMqttTopic) = some (str "error"))
    ?_ hstart
  intro a e b hmem ha hst
  exact hst.error_stays hown (hsince (a, e) hmem) ha

/-! ### A single device -/

lemma soleOwner_station : SoleOwner [] [] station where
  devName := by simp
  statusTopic := by simp
  valueTopics := by decide

/-- The device is given up at 23000 while the connection is up. -/
theorem error_published_station :
    ∃ tr s, Run (Step [station]) stationStarted tr s ∧
      tr.map (·.2) = [.connect, stationTick 12000, stationTick 23000] ∧
      lastPublished s.published (str "status") = some (str "error") := by
  have h₁ := Run.single (@Step.connect [station] stationStarted)
  have h₂ := h₁.append (.single (Step.tick_station 12000 h₁))
  have h₃ := h₂.append (.single (Step.tick_station 23000 h₂))
  refine ⟨_, _, h₃, rfl, ?_⟩
  refine error_published_of_exhausted soleOwner_station h₃ ⟨_, _, [], rfl, ?_, rfl, by simp⟩
  exact ⟨23000, _, ⟨1, 22000⟩, rfl, rfl, by decide⟩

/-- A device that is given up while the connection is down keeps showing "ok" once it is back. -/
theorem stale_ok_after_reconnect :
    ¬ ∀ (pre post : GwtTable) (item : RouterDeviceItem) (clk : ℕ → ℤ) (mqtt : CMqttConnection)
        (tr : List (Bridge × Event)) (s : Bridge), SoleOwner pre post item →
        Run (Step (pre ++ item :: post)) (.started (pre ++ item :: post) clk mqtt) tr s →
        s.mqtt.connStatus = .connected → AttemptsExhausted (fun _ => True) item tr →
        lastPublished s.published (cStr item.statusMqttTopic) = some (str "error") := by
  intro hclaim
  have h₁ := Run.single (@Step.connect [station] stationStarted)
  -- the message is answered by "ok", and moves the deadline to 11000
  have h₂ := h₁.append (.single (.update (str "in") (str "") (fun _ => 1000) rfl))
  have h₃ := h₂.append (.single (.disconnect _))
  have h₄ := h₃.append (.single (Step.tick_station 12000 h₃))
  -- the announcement is made here, and skipped
  have h₅ := h₄.append (.single (Step.tick_station 23000 h₄))
  have h₆ := h₅.append (.single (.connect _))
  have herror := hclaim [] [] station _ _ _ _ soleOwner_station h₆ rfl
    ⟨_, _, [(_, .connect)], List.append_assoc _ _ _,
      ⟨23000, _, ⟨1, 22000⟩, rfl, rfl, by decide⟩, trivial, by simp [Event.IsInputFor]⟩
  revert herror
  decide

end WBridge
