import Rpi5.Bootloader.Registers

/-!
# The GPIO driver

The modules `rp1_info` and `rp1_gpio` of the source. The registers of the pins stand in
two banks, control registers in one and pads in the other, which a driver reaches through
two base addresses.
-/

namespace Rpi5.Bootloader

/-- `Rp1Block`: the peripheral blocks. -/
inductive Rp1Block where
  | Sysinfo
  | Syscfg
  | Otp
  | Power
  | Resets
  | ClocksMain
  | ClocksVideo
  | PllSys
  | PllAudio
  | PllVideo
  | Uart0
  | Uart1
  | Uart2
  | Uart3
  | Uart4
  | Uart5
  | Spi8
  | Spi0
  | Spi1
  | Spi2
  | Spi3
  | Spi4
  | Spi5
  | Spi6
  | Spi7
  | I2c0
  | I2c1
  | I2c2
  | I2c3
  | I2c4
  | I2c5
  | I2c6
  | AudioIn
  | AudioOut
  | Pwm0
  | Pwm1
  | I2s0
  | I2s1
  | I2s2
  | Timer
  | Sdio0Cfg
  | Sdio1Cfg
  | BusfabricMonitor
  | BusfabricAxishim
  | Adc
  | IoBank0
  | IoBank1
  | IoBank2
  | SysRio0
  | SysRio1
  | SysRio2
  | PadsBank0
  | PadsBank1
  | PadsBank2
  | PadsEth
  | Eth
  | EthCfg
  | Pcie
  | Mipi0Csidma
  | Mipi0Csihost
  | Mipi0Dsidma
  | Mipi0Dsihost
  | Mipi0Cfg
  | Mipi0Isp
  | Mipi1Csidma
  | Mipi1Csihost
  | Mipi1Dsidma
  | Mipi1Dsihost
  | Mipi1Cfg
  | Mipi1Isp
  | VideoOutCfg
  | VideoOutVec
  | VideoOutDpi
  | Xosc
  | Watchdog
  | DmaTick
  | Usbhost0Cfg
  | Usbhost1Cfg
  | Rosc0
  | Rosc1
  | Vbusctrl
  | Ticks
  | Pio
  | Sdio0
  | Sdio1
  | Dma
  | Usbhost0
  | Usbhost1
  | Exac
deriving DecidableEq, Repr

/-- `BusType`. -/
inductive BusType where
  | APB
  | AHB
  | AXI3
deriving DecidableEq, Repr

/-- `Rp1PeripheralInfo`. -/
structure Rp1PeripheralInfo where
  busType : BusType
  atomicAccess : Bool
  address : Nat
deriving DecidableEq, Repr

/-- `get_block_address`. -/
def getBlockAddress : Rp1Block → Rp1PeripheralInfo
  | .Sysinfo => ⟨.APB, true, 0x40000000⟩
  | .Syscfg => ⟨.APB, true, 0x40008000⟩
  | .Otp => ⟨.APB, true, 0x4000c000⟩
  | .Power => ⟨.APB, true, 0x40010000⟩
  | .Resets => ⟨.APB, true, 0x40014000⟩
  | .ClocksMain => ⟨.APB, true, 0x40018000⟩
  | .ClocksVideo => ⟨.APB, true, 0x4001c000⟩
  | .PllSys => ⟨.APB, true, 0x40020000⟩
  | .PllAudio => ⟨.APB, true, 0x40024000⟩
  | .PllVideo => ⟨.APB, true, 0x40028000⟩
  | .Uart0 => ⟨.APB, false, 0x40030000⟩
  | .Uart1 => ⟨.APB, false, 0x40034000⟩
  | .Uart2 => ⟨.APB, false, 0x40038000⟩
  | .Uart3 => ⟨.APB, false, 0x4003c000⟩
  | .Uart4 => ⟨.APB, false, 0x40040000⟩
  | .Uart5 => ⟨.APB, false, 0x40044000⟩
  | .Spi8 => ⟨.APB, false, 0x4004c000⟩
  | .Spi0 => ⟨.APB, false, 0x40050000⟩
  | .Spi1 => ⟨.APB, false, 0x40054000⟩
  | .Spi2 => ⟨.APB, false, 0x40058000⟩
  | .Spi3 => ⟨.APB, false, 0x4005c000⟩
  | .Spi4 => ⟨.APB, false, 0x40060000⟩
  | .Spi5 => ⟨.APB, false, 0x40064000⟩
  | .Spi6 => ⟨.APB, false, 0x40068000⟩
  | .Spi7 => ⟨.APB, false, 0x4006c000⟩
  | .I2c0 => ⟨.APB, false, 0x40070000⟩
  | .I2c1 => ⟨.APB, false, 0x40074000⟩
  | .I2c2 => ⟨.APB, false, 0x40078000⟩
  | .I2c3 => ⟨.APB, false, 0x4007c000⟩
  | .I2c4 => ⟨.APB, false, 0x40080000⟩
  | .I2c5 => ⟨.APB, false, 0x40084000⟩
  | .I2c6 => ⟨.APB, false, 0x40088000⟩
  | .AudioIn => ⟨.APB, true, 0x40090000⟩
  | .AudioOut => ⟨.APB, true, 0x40094000⟩
  | .Pwm0 => ⟨.APB, true, 0x40098000⟩
  | .Pwm1 => ⟨.APB, true, 0x4009c000⟩
  | .I2s0 => ⟨.APB, false, 0x400a0000⟩
  | .I2s1 => ⟨.APB, false, 0x400a4000⟩
  | .I2s2 => ⟨.APB, false, 0x400a8000⟩
  | .Timer => ⟨.APB, true, 0x400ac000⟩
  | .Sdio0Cfg => ⟨.APB, true, 0x400b0000⟩
  | .Sdio1Cfg => ⟨.APB, true, 0x400b4000⟩
  | .BusfabricMonitor => ⟨.APB, true, 0x400c0000⟩
  | .BusfabricAxishim => ⟨.APB, true, 0x400c4000⟩
  | .Adc => ⟨.APB, true, 0x400c8000⟩
  | .IoBank0 => ⟨.APB, true, 0x400d0000⟩
  | .IoBank1 => ⟨.APB, true, 0x400d4000⟩
  | .IoBank2 => ⟨.APB, true, 0x400d8000⟩
  | .SysRio0 => ⟨.APB, true, 0x400e0000⟩
  | .SysRio1 => ⟨.APB, true, 0x400e4000⟩
  | .SysRio2 => ⟨.APB, true, 0x400e8000⟩
  | .PadsBank0 => ⟨.APB, true, 0x400f0000⟩
  | .PadsBank1 => ⟨.APB, true, 0x400f4000⟩
  | .PadsBank2 => ⟨.APB, true, 0x400f8000⟩
  | .PadsEth => ⟨.APB, true, 0x400fc000⟩
  | .Eth => ⟨.APB, false, 0x40100000⟩
  | .EthCfg => ⟨.APB, true, 0x40104000⟩
  | .Pcie => ⟨.APB, true, 0x40108000⟩
  | .Mipi0Csidma => ⟨.APB, false, 0x40110000⟩
  | .Mipi0Csihost => ⟨.APB, false, 0x40114000⟩
  | .Mipi0Dsidma => ⟨.APB, false, 0x40118000⟩
  | .Mipi0Dsihost => ⟨.APB, false, 0x4011c000⟩
  | .Mipi0Cfg => ⟨.APB, true, 0x40120000⟩
  | .Mipi0Isp => ⟨.APB, false, 0x40124000⟩
  | .Mipi1Csidma => ⟨.APB, false, 0x40128000⟩
  | .Mipi1Csihost => ⟨.APB, false, 0x4012c000⟩
  | .Mipi1Dsidma => ⟨.APB, false, 0x40130000⟩
  | .Mipi1Dsihost => ⟨.APB, false, 0x40134000⟩
  | .Mipi1Cfg => ⟨.APB, true, 0x40138000⟩
  | .Mipi1Isp => ⟨.APB, false, 0x4013c000⟩
  | .VideoOutCfg => ⟨.APB, true, 0x40140000⟩
  | .VideoOutVec => ⟨.APB, true, 0x40144000⟩
  | .VideoOutDpi => ⟨.APB, true, 0x40148000⟩
  | .Xosc => ⟨.APB, true, 0x40150000⟩
  | .Watchdog => ⟨.APB, true, 0x40154000⟩
  | .DmaTick => ⟨.APB, true, 0x40158000⟩
  | .Usbhost0Cfg => ⟨.APB, true, 0x40160000⟩
  | .Usbhost1Cfg => ⟨.APB, true, 0x40164000⟩
  | .Rosc0 => ⟨.APB, true, 0x40168000⟩
  | .Rosc1 => ⟨.APB, true, 0x4016c000⟩
  | .Vbusctrl => ⟨.APB, true, 0x40170000⟩
  | .Ticks => ⟨.APB, true, 0x40174000⟩
  | .Pio => ⟨.APB, true, 0x40178000⟩
  | .Sdio0 => ⟨.AHB, false, 0x40180000⟩
  | .Sdio1 => ⟨.AHB, false, 0x40184000⟩
  | .Dma => ⟨.AHB, false, 0x40188000⟩
  | .Usbhost0 => ⟨.AXI3, false, 0x40200000⟩
  | .Usbhost1 => ⟨.AXI3, false, 0x40300000⟩
  | .Exac => ⟨.AXI3, false, 0x40400000⟩

namespace GpioCtrl

def funcsel : Field := ⟨0, 5⟩
def outover : Field := ⟨12, 2⟩
def oeover : Field := ⟨14, 2⟩

end GpioCtrl

namespace Gpio

/-- Pull down enable. -/
def pde : Field := ⟨2, 1⟩

/-- Pull up enable. -/
def pue : Field := ⟨3, 1⟩

/-- Output disable. -/
def od : Field := ⟨7, 1⟩

end Gpio

/-- `Rp1GPIO`: the addresses its two references have. -/
structure Rp1Gpio where
  ioBank0 : Nat
  padsBank0 : Nat
deriving DecidableEq, Repr

namespace Rp1Gpio

/-- `new`. Both references have the address of the pads. -/
def new : Rp1Gpio where
  ioBank0 := (getBlockAddress .PadsBank0).address
  padsBank0 := (getBlockAddress .PadsBank0).address

/-- The control register of a pin, the second word of its entry in `IoBank0`. -/
def ctrlAddress (bank pin : Nat) : Nat := bank + 8 * pin + 4

/-- The register of a pin in `PadsBank0`. -/
def padAddress (bank pin : Nat) : Nat := bank + 4 + 4 * pin

/-- `get(gpio_num).unwrap()` in an array of 28 registers. -/
def unwrapPin (gpioNum : Nat) : Driver Nat :=
  if gpioNum < 28 then .done gpioNum else .stop .unwrapNone

variable (tock : TockRegisters) (gpio : Rp1Gpio)

/-- Rewrite fields of the control register of a pin. -/
def modifyCtrl (gpioNum : Nat) (values : List FieldValue) : Driver Unit := do
  let pin ← unwrapPin gpioNum
  Driver.modify tock (ctrlAddress gpio.ioBank0 pin) values

def setFunc (gpioNum : Nat) (function : UInt32) : Driver Unit :=
  gpio.modifyCtrl tock gpioNum [GpioCtrl.funcsel.val function.toNat]

def enableOutput (gpioNum : Nat) : Driver Unit := do
  gpio.modifyCtrl tock gpioNum [GpioCtrl.outover.val 0, GpioCtrl.oeover.val 0]
  let pin ← unwrapPin gpioNum
  Driver.modify tock (padAddress gpio.padsBank0 pin) [Gpio.od.clear, Gpio.pde.clear, Gpio.pue.clear]

def gpioEnable (gpioNum : Nat) : Driver Unit :=
  gpio.modifyCtrl tock gpioNum [GpioCtrl.oeover.val 3]

def gpioDisable (gpioNum : Nat) : Driver Unit :=
  gpio.modifyCtrl tock gpioNum [GpioCtrl.oeover.val 2]

end Rp1Gpio
end Rpi5.Bootloader
