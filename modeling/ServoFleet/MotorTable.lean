import Mathlib.Data.Rat.Defs
import ServoFleet.Command

/-!
The protocol ranges of the motor models. Every bound is a float literal that
the format represents exactly, so it is written as the rational it is.
-/

namespace ServoFleet

structure MotorEcSpec where
  model : String
  kp : Range ℚ
  kd : Range ℚ
  speedRad : Range ℚ
  posRad : Range ℚ
  torqueNm : Range ℚ
  currentA : Range ℚ
  deriving DecidableEq, Repr

/-- A row of the table, its columns in the order of the source. -/
def ecSpec (model : String) (kp kd speedRad posRad torqueNm currentA : ℚ × ℚ) : MotorEcSpec where
  model
  kp := { min := kp.1, max := kp.2 }
  kd := { min := kd.1, max := kd.2 }
  speedRad := { min := speedRad.1, max := speedRad.2 }
  posRad := { min := posRad.1, max := posRad.2 }
  torqueNm := { min := torqueNm.1, max := torqueNm.2 }
  currentA := { min := currentA.1, max := currentA.2 }

/-- `EC_MOTOR_TABLE` -/
def ecMotorTable : List MotorEcSpec := [
  ecSpec "EC-A2806-P2-36" (0, 500) (0, 5) (-18, 18) (-25 / 2, 25 / 2)
    (-12, 12) (-10, 10),
  ecSpec "EC-A4310-P2-36" (0, 500) (0, 5) (-18, 18) (-25 / 2, 25 / 2)
    (-30, 30) (-30, 30),
  ecSpec "EC-A4315-P2-36" (0, 500) (0, 5) (-18, 18) (-25 / 2, 25 / 2)
    (-70, 70) (-30, 30),
  ecSpec "EC-A6408-P2-25" (0, 500) (0, 5) (-18, 18) (-25 / 2, 25 / 2)
    (-60, 60) (-60, 60),
  ecSpec "EC-A6416-P2-25" (0, 500) (0, 5) (-18, 18) (-25 / 2, 25 / 2)
    (-120, 120) (-60, 60),
  ecSpec "EC-A8112-P1-18" (0, 500) (0, 5) (-18, 18) (-25 / 2, 25 / 2)
    (-90, 90) (-60, 60),
  ecSpec "EC-A8116-P1-18" (0, 500) (0, 5) (-18, 18) (-25 / 2, 25 / 2)
    (-150, 150) (-70, 70),
  ecSpec "EC-A10020-P1-12/6" (0, 500) (0, 50) (-18, 18) (-25 / 2, 25 / 2)
    (-150, 150) (-70, 70),
  ecSpec "EC-A13720-P1-11.4" (0, 500) (0, 50) (-18, 18) (-25 / 2, 25 / 2)
    (-400, 400) (-220, 220),
  ecSpec "EC-A13715-P1-12.67" (0, 500) (0, 50) (-18, 18) (-25 / 2, 25 / 2)
    (-320, 320) (-220, 220),
  ecSpec "EC-A4310-P2-36H" (0, 500) (0, 5) (-18, 18) (-25 / 2, 25 / 2)
    (-30, 30) (-30, 30),
  ecSpec "EC-A6408-P2-16H" (0, 500) (0, 5) (-18, 18) (-25 / 2, 25 / 2)
    (-45, 45) (-30, 30),
  ecSpec "EC-A6408-P2-30.25H" (0, 500) (0, 5) (-18, 18) (-25 / 2, 25 / 2)
    (-60, 60) (-60, 60),
  ecSpec "EC-A6408-P2-30.25HB" (0, 500) (0, 5) (-18, 18) (-25 / 2, 25 / 2)
    (-60, 60) (-60, 60),
  ecSpec "EC-A6416-P2-30.25H" (0, 500) (0, 5) (-18, 18) (-25 / 2, 25 / 2)
    (-120, 120) (-60, 60),
  ecSpec "EC-A8112-P1-18H" (0, 500) (0, 5) (-18, 18) (-25 / 2, 25 / 2)
    (-90, 90) (-60, 60),
  ecSpec "EC-A8116-P1-18H" (0, 500) (0, 5) (-18, 18) (-25 / 2, 25 / 2)
    (-130, 130) (-70, 70),
  ecSpec "EC-A10020-P2-24" (0, 500) (0, 50) (-18, 18) (-25 / 2, 25 / 2)
    (-300, 300) (-140, 140),
  ecSpec "EC-A3814-H14-107" (0, 500) (0, 5) (-18, 18) (-25 / 2, 25 / 2)
    (-60, 60) (-20, 20),
  ecSpec "EC-A5013-H17-100" (0, 500) (0, 5) (-18, 18) (-25 / 2, 25 / 2)
    (-90, 90) (-30, 30),
  ecSpec "EC-A6013-H20-100" (0, 500) (0, 5) (-18, 18) (-25 / 2, 25 / 2)
    (-130, 130) (-35, 35)]

def findMotorEcSpec (model : String) : Option MotorEcSpec :=
  if model = "" then none else ecMotorTable.find? fun spec => spec.model = model

end ServoFleet
