import Mathlib.Data.List.Infix
import Adbcpp.Shell
import Adbcpp.Sync

/-! Applications on the device. To install one, its APK is pushed to the device's
scratch directory, installed from there by the package manager, and removed again
whether it was installed or not. The other calls run one command each. -/

namespace Adbcpp

open Protocol

namespace App

/-- A single-quoted form of the text, for the shell that runs the command on the device. -/
def shellQuote (text : List Byte) : List Byte :=
  bytesOf "'" ++ text.flatMap (fun character => if character = 0x27 then bytesOf "'\\''" else [character]) ++
    bytesOf "'"

/-- What the package manager answered. -/
structure PackageResult where
  output : List Byte := []
  standardOutput : List Byte := []
  errorOutput : List Byte := []
  exitCode : UInt8 := 0
  success : Bool := false
  deriving DecidableEq, Repr

/-- The package manager says so when it worked; the exit code alone is not enough. -/
def packageResult (result : CommandResult) : PackageResult where
  output := result.output
  standardOutput := result.standardOutput
  errorOutput := result.errorOutput
  exitCode := result.exitCode
  success := result.exitCode = 0 && decide (bytesOf "Success" <:+: result.output)

/-- Where an APK is pushed to. -/
def remoteOf (filename : List Byte) : List Byte := bytesOf "/data/local/tmp/" ++ filename

/-- The command that installs a pushed APK. -/
def installCommand (options remote : List Byte) : List Byte :=
  bytesOf "pm install" ++ (if options = [] then [] else bytesOf " " ++ options) ++ bytesOf " " ++
    shellQuote remote

/-- The command that removes a pushed APK. -/
def removeCommand (path : List Byte) : List Byte := bytesOf "rm -f " ++ shellQuote path

/-- The command that uninstalls a package, perhaps without its data and cache directories. -/
def uninstallCommand (package : List Byte) (keepData : Bool) : List Byte :=
  bytesOf "pm uninstall" ++ (if keepData then bytesOf " -k" else []) ++ bytesOf " " ++ shellQuote package

/-- The command that starts the launcher activity of a package. -/
def launchCommand (package : List Byte) : List Byte :=
  bytesOf "monkey -p " ++ shellQuote package ++ bytesOf " -c android.intent.category.LAUNCHER 1"

def closeCommand (package : List Byte) : List Byte := bytesOf "am force-stop " ++ shellQuote package

def isRunningCommand (package : List Byte) : List Byte := bytesOf "pidof " ++ shellQuote package

variable {σ : Type} [Channel σ]

/-- Removes a pushed APK, and drops the error of a failure. -/
def removeQuietly (path : List Byte) : Action (Connection σ) Unit := do
  let _ ← Prog.attempt (Shell.run (removeCommand path) .auto)

open Sync in
/-- Installs an APK, with the options of the package manager. -/
def install (b : Build) (options : List Byte) : Action (Host σ LocalFile) PackageResult := do
  let host ← Prog.get
  if !host.file.isRegular then
    Prog.fail (.of .invalidArgument "the APK is not a regular file")
  else do
    let remote := remoteOf host.file.filename
    match ← Prog.attempt (push b remote .auto) with
    | .error e => do
      onConnection (removeQuietly remote)
      Prog.fail e
    | .ok () => do
      let result ← Prog.attempt (onConnection (Shell.run (installCommand options remote) .auto))
      onConnection (removeQuietly remote)
      match result with
      | .error e => Prog.fail e
      | .ok result => pure (packageResult result)

def uninstall (package : List Byte) (keepData : Bool) : Action (Connection σ) PackageResult := do
  let result ← Shell.run (uninstallCommand package keepData) .auto
  pure (packageResult result)

def launch (package : List Byte) : Action (Connection σ) CommandResult :=
  Shell.run (launchCommand package) .auto

/-- Force-stops an application. The exit code carries no answer. -/
def close (package : List Byte) : Action (Connection σ) Unit := do
  let _ ← Shell.run (closeCommand package) .auto

/-- Whether a process of that name runs, as the exit code of the command says. -/
def isRunning (package : List Byte) : Action (Connection σ) Bool := do
  let result ← Shell.run (isRunningCommand package) .auto
  pure result.success

end App

end Adbcpp
