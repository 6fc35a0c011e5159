/-
# MediaSniff.Builtin.Volumes — volumes in the built-in database

Mounted volumes, known by what they hold.
-/
import MediaSniff.Descriptor

set_option autoImplicit false

namespace MediaSniff.Builtin

/-- The entries of these types, in the order of their numbers. -/
def volumes : List Descriptor.Entry := [
    { name := "x-content/video-dvd"
      comment := "video DVD disc"
      layouts := [
        { priority := some 50,
          tests := [
            { path := "VIDEO_TS/VIDEO_TS.IFO", kind := some "file" },
            { path := "VIDEO_TS/VIDEO_TS.IFO;1", kind := some "file" },
            { path := "VIDEO_TS.IFO", kind := some "file" },
            { path := "VIDEO_TS.IFO;1", kind := some "file" }] }] },
    { name := "x-content/video-hddvd"
      comment := "HD DVD video disc"
      layouts := [
        { priority := some 50,
          tests := [
            { path := "HVDVD_TS/HV000I01.IFO", kind := some "file" },
            { path := "HVDVD_TS/HV001I01.IFO", kind := some "file" },
            { path := "HVDVD_TS/HVA00001.VTI", kind := some "file" }] }] },
    { name := "x-content/unix-software"
      comment := "software"
      layouts := [
        { priority := some 50,
          tests := [
            { path := ".autorun",
              kind := some "file",
              matchCase := true,
              executable := true },
            { path := "autorun",
              kind := some "file",
              matchCase := true,
              executable := true },
            { path := "autorun.sh",
              kind := some "file",
              matchCase := true,
              executable := true }] }] },
    { name := "x-content/video-bluray"
      comment := "Blu-ray video disc"
      layouts := [
        { priority := some 50,
          tests := [
            { path := "BDAV", kind := some "directory", nonEmpty := true },
            { path := "BDMV", kind := some "directory", nonEmpty := true }] }] },
    { name := "x-content/audio-dvd"
      comment := "audio DVD"
      layouts := [
        { priority := some 50,
          tests := [
            { path := "AUDIO_TS/AUDIO_TS.IFO", kind := some "file" },
            { path := "AUDIO_TS/AUDIO_TS.IFO;1", kind := some "file" }] }] },
    { name := "x-content/ebook-reader"
      comment := "e-book reader"
      layouts := [
        { priority := some 50,
          tests := [
            { path := ".kobo", kind := some "directory", nonEmpty := true },
            { path := "system/com.amazon.ebook.booklet.reader" }] }] },
    { name := "x-content/win32-software"
      comment := "Windows software"
      layouts := [
        { priority := some 50,
          tests := [
            { path := "autorun.exe", kind := some "file", executable := true },
            { path := "autorun.inf", kind := some "file" }] }] },
    { name := "x-content/image-dcf"
      comment := "digital photos"
      layouts := [
        { priority := some 50,
          tests := [{ path := "dcim", kind := some "directory", nonEmpty := true }] }] },
    { name := "x-content/image-picturecd"
      comment := "Picture CD"
      layouts := [
        { priority := some 50,
          tests := [
            { path := "PICTURES",
              kind := some "directory",
              matchCase := true,
              nonEmpty := true }] }] },
    { name := "x-content/video-svcd"
      comment := "Super Video CD"
      layouts := [
        { priority := some 50,
          tests := [
            { path := "MPEG2",
              kind := some "directory",
              children := [{ path := "MPEG2/AVSEQ01.MPG", kind := some "file" }] }] }] },
    { name := "x-content/video-vcd"
      comment := "Video CD"
      layouts := [
        { priority := some 50,
          tests := [
            { path := "mpegav",
              kind := some "directory",
              children := [{ path := "mpegav/AVSEQ01.DAT", kind := some "file" }] }] }] }]

end MediaSniff.Builtin
