import Kinetis.Allocator.Statistics
import Kinetis.Pov.Angle
import Kinetis.Pov.Premultiplied
import Kinetis.Pov.BlendWhole
import Kinetis.Pov.PidOverflow
import Kinetis.Pov.StatusRelay
import Kinetis.Pov.Batches
import Kinetis.Pov.FileList
import Kinetis.Pov.FirmwareAgreement
import Kinetis.Pov.ImageCommand
import Kinetis.Pov.FsmPasses
import Kinetis.Bootloader.Recovery
import Kinetis.Bootloader.Flag
import Kinetis.Bootloader.FlashWrite
import Kinetis.Hydrology.Transposed
import Kinetis.Hydrology.FileReport
import Kinetis.Hydrology.Resend
import Kinetis.Hydrology.HostProcess
import Kinetis.Hydrology.Downlink
import Kinetis.Hydrology.Commands
import Kinetis.Flash.Spi
import Kinetis.Eeprom.Acks
import Kinetis.Eeprom.Wear
import Kinetis.Timer.BasicTimer
import Kinetis.Serial.Delivery
import Kinetis.Serial.SpiSoft
import Kinetis.Serial.Hc05
import Kinetis.Rtc.Calendar
import Kinetis.Rtc.TaskLoop
import Kinetis.TimTask.Pass
import Kinetis.Fatfs.FatTime
import Kinetis.Fatfs.CreateDirs
import Kinetis.Sensor.Mt6701
import Kinetis.Sensor.Ds3231
import Kinetis.Xmodem.Packet
import Kinetis.Flight.Sbus
import Kinetis.Input.Button
import Kinetis.Input.Shell
