import Autotrading.World

/-!
# The kill switch

`app/services/safety/kill_switch_service.py`: one Redis key, on exactly when it
holds `"1"`.
-/
namespace Autotrading.KillSwitchService

def isOn : Program Bool := do
  let value ← Op.perform .getKillSwitch
  pure (value == some "1")

def setState (enabled : Bool) : Program Unit :=
  Op.perform (.setKillSwitch (if enabled then "1" else "0"))

end Autotrading.KillSwitchService
