import Coreboot.HardenedMalloc.Table
import Coreboot.HardenedMalloc.Run
import Coreboot.Fsp.Basic
import Coreboot.Fsp.Types
import Coreboot.Fsp.Raminit
import Coreboot.Fsp.Validation
import Coreboot.Fsp.BootCycle
import Coreboot.Fsp.SiliconInit
import Coreboot.TpmLog.Strings
import Coreboot.TpmLog.Table
import Coreboot.TpmLog.Copy
import Coreboot.TpmLog.AppendOnly
import Coreboot.TpmLog.RoundTrip
import Coreboot.TpmLog.Refinement
import Coreboot.TpmLog.Dump
