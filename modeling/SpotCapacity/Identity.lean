/-!
# Identity

The name and the version by which the program is known in its log lines and metrics.
-/

namespace SpotCapacity

def programName : String := "spot-rescheduler"

def programVersion : String := "0.1.0"

end SpotCapacity
