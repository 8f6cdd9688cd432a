import SmartScale.Hx711.Boost
import SmartScale.Hx711.Convergence
import SmartScale.Hx711.Hull
import SmartScale.Hx711.Tasks
import SmartScale.Hx711.WireFormat
import SmartScale.WeightManager.Debouncing
import SmartScale.WeightManager.SharedQueue
import SmartScale.WeightManager.Startup
import SmartScale.Wifi.ServerControl
import SmartScale.Bluetooth.Characteristic
import SmartScale.Base.Rounding
import SmartScale.WeightManager.RemoteWeight
import SmartScale.Base.History
import SmartScale.Wifi.EventHandler
import SmartScale.Bluetooth.Connection
import SmartScale.Bluetooth.GattServer
import SmartScale.Base.Objects
import SmartScale.Hx711.Lifecycle
import SmartScale.Base.Json
import SmartScale.SpiffsManager.TimeLog
import SmartScale.Base.Kernel
import SmartScale.Wifi.ScanConnect
import SmartScale.WifiComm.Https
import SmartScale.WifiComm.Comm
import SmartScale.WifiComm.ServerTask
import SmartScale.WifiComm.Instances
import SmartScale.WifiComm.HealthLoop
import SmartScale.WifiComm.Ownership
import SmartScale.Base.ConvexWeights
import SmartScale.Base.Covariance
import SmartScale.Base.LeastSquares
import SmartScale.Filter.StandardKalman
import SmartScale.Hx711.KalmanOverride
import SmartScale.Hx711.NoiseBounds
import SmartScale.Filter.MedianPrefilter
import SmartScale.Hx711.MedianSettling
import SmartScale.Hx711.MedianStage
import SmartScale.Hx711.StepAverage
import SmartScale.Hx711.MedianWindow
import SmartScale.Wifi.Credentials
import SmartScale.Base.LineFit
import SmartScale.Calibration.Tare
import SmartScale.Calibration.MultiPoint
import SmartScale.Calibration.SinglePoint
import SmartScale.Hx711.RunningSum
import SmartScale.Base.WrappedClock
import SmartScale.WeightManager.MeasureLog
import SmartScale.WeightManager.Scale
import SmartScale.WeightManager.SteadyLoad
import SmartScale.WeightManager.StepLoad
import SmartScale.BodyComposition
import SmartScale.Base.BitSerial
import SmartScale.Hx711.ReadRaw
import SmartScale.Base.CriticalSection
import SmartScale.Hx711.LockedCalls
import SmartScale.Base.Statements
import SmartScale.Filter.LockedAverage
import SmartScale.Filter.LockedKalman
import SmartScale.Hx711.StepResponse
import SmartScale.Base.Lines
import SmartScale.WifiComm.Certificate
import SmartScale.Hx711.NoisySettling
import SmartScale.Base.Heap
import SmartScale.Filter.BufferMemory
import SmartScale.Hx711.WindowBuffer
import SmartScale.Base.LazyInit
import SmartScale.SntpSynch
import SmartScale.Base.Decimal
import SmartScale.WifiComm.WeightJson
import SmartScale.SpiffsManager.SortedLog
