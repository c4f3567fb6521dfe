import ServoFleet.MotorReceive
import ServoFleet.PacketPool

/-!
The runtime: its configuration, the check of it, and the binding of every motor
to the driver of its channel. Slots and identifiers of devices are natural
numbers; the memory of the devices keeps them far below 2^32.
-/

namespace ServoFleet

structure MotorConfig where
  name : String
  channel : String
  model : String
  canPort : CanPort := 0
  canId : CanId := 0
  deriving DecidableEq, Repr

structure ChannelConfig where
  name : String
  maxBandwidthBps : Nat := 1000000
  sendQueueSlots : BitVec 32 := 1024
  deriving DecidableEq, Repr

structure FleetConfig where
  channels : List ChannelConfig
  motors : List MotorConfig
  deriving DecidableEq, Repr

def MotorConfig.address (config : MotorConfig) : CanAddr :=
  { canPort := config.canPort, canId := config.canId }

structure DeviceBinding where
  driverSlot : Nat := 0
  deviceSlot : Nat := 0
  deriving DecidableEq, Repr

/-- `runtime_t`; a device's position in `motors` is its identifier. -/
structure Runtime (F : Type) where
  options : FleetConfig
  motors : Motors F := []
  motorDrivers : List MotorDriver := []
  deviceBindings : List DeviceBinding := []

def findDriverSlot (drivers : List MotorDriver) (channelName : String) :
    Option (Fin drivers.length) :=
  drivers.findFinIdx? fun driver => driver.channelName = channelName

def usesChannel (motors : List MotorConfig) (channelName : String) : Bool :=
  motors.any fun motor => motor.channel = channelName

namespace FleetConfig

def channelExists (config : FleetConfig) (channelName : String) : Bool :=
  config.channels.any fun channel => channel.name = channelName

def deviceNameCount (config : FleetConfig) (name : String) : Nat :=
  config.motors.countP fun motor => motor.name = name

def validateDevice (config : FleetConfig) (name channelName : String) : ErrCode :=
  if name = "" ∨ config.deviceNameCount name ≠ 1 then .error .invalidArgument
  else if !config.channelExists channelName then .error .invalidArgument
  else .ok ()

def validateChannelName (config : FleetConfig) (channel : ChannelConfig) : ErrCode :=
  let nameCount := config.channels.countP fun item => item.name = channel.name
  if channel.name = "" ∨ nameCount ≠ 1 then .error .invalidArgument else .ok ()

def validateMotor (config : FleetConfig) (motor : MotorConfig) : ErrCode := do
  config.validateDevice motor.name motor.channel
  let addressCount := config.motors.countP fun item =>
    item.channel = motor.channel && item.canPort = motor.canPort && item.canId = motor.canId
  if motor.canId > 0x7FF ∨ addressCount ≠ 1 then throw .invalidArgument

def validateChannelLimits (config : FleetConfig) (channel : ChannelConfig) : ErrCode :=
  if usesChannel config.motors channel.name ∧
      (channel.maxBandwidthBps = 0 ∨ channel.sendQueueSlots = 0) then
    .error .invalidArgument
  else .ok ()

/-- `validate_config`: three loops, each ended by its first error. -/
def validateConfig (config : FleetConfig) : ErrCode := do
  config.channels.forM config.validateChannelName
  config.motors.forM config.validateMotor
  config.channels.forM config.validateChannelLimits

end FleetConfig

namespace Runtime

variable {F : Type} [FloatArith F]

/-- One driver for each channel in use. A constructor throws when the send
storage is too large or when the socket cannot be opened, which is `opens`. -/
def initDrivers (runtime : Runtime F) (opens : ChannelConfig → Bool) : Option (Runtime F) :=
  let channels := runtime.options.channels.filter fun channel =>
    usesChannel runtime.options.motors channel.name
  if channels.all fun channel =>
      opens channel && channel.sendQueueSlots.toNat ≤ 0xFFFFFFFF / motorUdpPacketCap then
    some { runtime with
      motorDrivers := channels.map fun channel => { channelName := channel.name } }
  else none

/-- The body of the loop of `bind_motors`. -/
def bindMotor (runtime : Runtime F) (config : MotorConfig) : Result (Runtime F) :=
  match findDriverSlot runtime.motorDrivers config.channel with
  | none => .error .invalidArgument
  | some driverSlot =>
      match findMotorEcSpec config.model with
      | none => .error .invalidArgument
      | some spec =>
          let deviceId := runtime.deviceBindings.length
          let device := .init (BitVec.ofNat 32 deviceId) config.name config.address (some spec)
          let (driver, deviceSlot) := runtime.motorDrivers[driverSlot].bindMotor deviceId device
          .ok { runtime with
            motors := runtime.motors ++ [device]
            motorDrivers := runtime.motorDrivers.set driverSlot driver
            deviceBindings := runtime.deviceBindings ++ [{ driverSlot, deviceSlot }] }

def bindMotors (runtime : Runtime F) : Result (Runtime F) :=
  runtime.options.motors.foldlM bindMotor runtime

/-- `runtime_t(options)` and `init`. -/
def init (options : FleetConfig) (opens : ChannelConfig → Bool) : Result (Runtime F) := do
  options.validateConfig
  match initDrivers { options } opens with
  | none => throw .ioError
  | some runtime => runtime.bindMotors

def findDeviceBinding (runtime : Runtime F) (deviceId : DeviceId) : Option DeviceBinding :=
  runtime.deviceBindings[deviceId.toNat]?

end Runtime

end ServoFleet
